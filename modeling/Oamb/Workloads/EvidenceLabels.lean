import Oamb.Foundation.StatefulExecution
import Oamb.Workloads.EvidenceRendering

/-!
# Labels and sources of visible evidence

No two items have the same label. A header shows the label and the kind of its item, and names the
source chunk that the item refers to, unless a missing reference is taken for an empty one
(`showsSource`, `not_showsSource`).
-/

set_option autoImplicit false

namespace Oamb.Workloads.EvidenceLabels

open Foundation Foundation.StatefulExecution
open Contracts.NativeEvidence EvidenceRendering

variable {library : Library} {candidates : List NativeEvidenceCandidate}
  {candidate : NativeEvidenceCandidate}

/-! ### Labels -/

def IsSourceChunk (candidate : NativeEvidenceCandidate) : Prop :=
  candidate.evidenceKind = "source_chunk"

/-- Which labels some items have. -/
structure Labelled (candidates : List NativeEvidenceCandidate) (state : Labels) : Prop where
  length : state.labels.length = candidates.length
  numbered : ∀ label ∈ state.labels,
    (∃ number ≤ state.factCount, label = "F" ++ toString number) ∨
      ∃ number ≤ state.sourceCount, label = "S" ++ toString number
  distinct : state.labels.Nodup
  sound : ∀ reference label, state.sourceLabels.lookup reference = some label →
    ∃ (place : ℕ) (chunk : NativeEvidenceCandidate), candidates[place]? = some chunk ∧
      IsSourceChunk chunk ∧ chunk.nativeReference = some reference ∧
        state.labels[place]? = some label
  complete : ∀ chunk ∈ candidates, IsSourceChunk chunk → ∀ reference,
    chunk.nativeReference = some reference → (state.sourceLabels.lookup reference).isSome = true

theorem append_toString_inj {start : String} {first second : ℕ}
    (hsame : start ++ toString first = start ++ toString second) : first = second :=
  Numerals.toString_injective (String.append_right_inj start |>.mp hsame)

theorem fact_ne_source (first second : ℕ) : "F" ++ toString first ≠ "S" ++ toString second := by
  intro hsame
  have hheads := congrArg (fun text : String ↦ text.toList.head?) hsame
  simp at hheads

theorem labelled_empty : Labelled [] (assignLabels []) where
  length := rfl
  numbered := fun _ hlabel ↦ absurd hlabel List.not_mem_nil
  distinct := List.nodup_nil
  sound := fun _ _ hlookup ↦ nomatch hlookup
  complete := fun _ hchunk ↦ absurd hchunk List.not_mem_nil

theorem assignLabels_append (candidates : List NativeEvidenceCandidate)
    (candidate : NativeEvidenceCandidate) :
    assignLabels (candidates ++ [candidate]) = assignLabel (assignLabels candidates) candidate :=
  List.foldl_concat ..

/-- A label that stands behind other ones keeps them where they are. -/
theorem getElem_concat_of_some {α : Type} {items : List α} {item last : α} {place : ℕ}
    (hitem : items[place]? = some item) : (items ++ [last])[place]? = some item := by
  rw [List.getElem?_append_left (List.getElem?_eq_some_iff.mp hitem).1, hitem]

theorem labelled_fact {state : Labels} (hlabelled : Labelled candidates state)
    (hkind : ¬IsSourceChunk candidate) :
    Labelled (candidates ++ [candidate]) (assignLabel state candidate) := by
  unfold assignLabel
  rw [if_neg (show candidate.evidenceKind ≠ "source_chunk" from hkind)]
  refine ⟨?_, fun label hlabel ↦ ?_, ?_, fun reference label hlookup ↦ ?_, ?_⟩
  · change (state.labels ++ [_]).length = _
    rw [List.length_append, List.length_append, hlabelled.length]
    rfl
  · rcases List.mem_append.mp hlabel with hold | hnew
    · rcases hlabelled.numbered label hold with ⟨number, hle, rfl⟩ | hsource
      · exact .inl ⟨number, Nat.le_succ_of_le hle, rfl⟩
      · exact .inr hsource
    · rw [List.mem_singleton.mp hnew]
      exact .inl ⟨_, le_refl _, rfl⟩
  · change (state.labels ++ [_]).Nodup
    rw [← List.concat_eq_append]
    refine hlabelled.distinct.concat fun hmem ↦ ?_
    rcases hlabelled.numbered _ hmem with ⟨number, hle, hsame⟩ | ⟨number, -, hsame⟩
    · exact absurd (append_toString_inj hsame) (by omega)
    · exact fact_ne_source _ _ hsame
  · obtain ⟨place, chunk, hchunk, hsource, hreference, hplace⟩ :=
      hlabelled.sound reference label hlookup
    exact ⟨place, chunk, getElem_concat_of_some hchunk, hsource, hreference,
      getElem_concat_of_some hplace⟩
  · intro chunk hchunk hsource
    rcases List.mem_append.mp hchunk with hold | hnew
    · exact hlabelled.complete chunk hold hsource
    · exact absurd (List.mem_singleton.mp hnew ▸ hsource) hkind

/-- The labels of the source chunks that carry a reference. -/
theorem lookup_sourceLabels {state : Labels} {reference : String}
    (hkind : IsSourceChunk candidate) :
    (assignLabel state candidate).sourceLabels.lookup reference =
      if candidate.nativeReference = some reference then
        some ("S" ++ toString (state.sourceCount + 1))
      else state.sourceLabels.lookup reference := by
  unfold assignLabel
  rw [if_pos (show candidate.evidenceKind = "source_chunk" from hkind)]
  cases hnative : candidate.nativeReference with
  | none => rfl
  | some native =>
    change (state.sourceLabels.insert native _).lookup reference = _
    rw [Dictionary.lookup_insert_eq_ite]
    by_cases hsame : reference = native
    · rw [if_pos hsame, if_pos (hsame ▸ rfl)]
    · rw [if_neg hsame, if_neg fun hsome ↦ hsame (Option.some.inj hsome).symm]

theorem labels_source (state : Labels) (hkind : IsSourceChunk candidate) :
    (assignLabel state candidate).labels =
      state.labels ++ ["S" ++ toString (state.sourceCount + 1)] ∧
    (assignLabel state candidate).factCount = state.factCount ∧
    (assignLabel state candidate).sourceCount = state.sourceCount + 1 := by
  unfold assignLabel
  rw [if_pos (show candidate.evidenceKind = "source_chunk" from hkind)]
  exact ⟨rfl, rfl, rfl⟩

theorem labelled_source {state : Labels} (hlabelled : Labelled candidates state)
    (hkind : IsSourceChunk candidate) :
    Labelled (candidates ++ [candidate]) (assignLabel state candidate) := by
  obtain ⟨hlabels, hfacts, hsources⟩ := labels_source state hkind
  refine ⟨?_, fun label hlabel ↦ ?_, ?_, fun reference label hlookup ↦ ?_, ?_⟩
  · rw [hlabels, List.length_append, List.length_append, hlabelled.length]
    rfl
  · rw [hlabels] at hlabel
    rw [hfacts, hsources]
    rcases List.mem_append.mp hlabel with hold | hnew
    · rcases hlabelled.numbered label hold with hfact | ⟨number, hle, rfl⟩
      · exact .inl hfact
      · exact .inr ⟨number, Nat.le_succ_of_le hle, rfl⟩
    · rw [List.mem_singleton.mp hnew]
      exact .inr ⟨_, le_refl _, rfl⟩
  · rw [hlabels, ← List.concat_eq_append]
    refine hlabelled.distinct.concat fun hmem ↦ ?_
    rcases hlabelled.numbered _ hmem with ⟨number, -, hsame⟩ | ⟨number, hle, hsame⟩
    · exact fact_ne_source _ _ hsame.symm
    · exact absurd (append_toString_inj hsame) (by omega)
  · rw [lookup_sourceLabels hkind] at hlookup
    rw [hlabels]
    split at hlookup
    · next hreference =>
      cases hlookup
      refine ⟨candidates.length, candidate, List.getElem?_concat_length, hkind, hreference, ?_⟩
      rw [← hlabelled.length, List.getElem?_concat_length]
    · obtain ⟨place, chunk, hchunk, hsource, hreference, hplace⟩ :=
        hlabelled.sound reference label hlookup
      exact ⟨place, chunk, getElem_concat_of_some hchunk, hsource, hreference,
        getElem_concat_of_some hplace⟩
  · intro chunk hchunk hsource reference hreference
    rw [lookup_sourceLabels hkind]
    split
    · rfl
    · next hother =>
      rcases List.mem_append.mp hchunk with hold | hnew
      · exact hlabelled.complete chunk hold hsource reference hreference
      · exact absurd (List.mem_singleton.mp hnew ▸ hreference) hother

theorem labelled_assignLabels (candidates : List NativeEvidenceCandidate) :
    Labelled candidates (assignLabels candidates) := by
  induction candidates using List.reverseRecOn with
  | nil => exact labelled_empty
  | append_singleton candidates candidate ih =>
    rw [assignLabels_append]
    by_cases hkind : IsSourceChunk candidate
    · exact labelled_source ih hkind
    · exact labelled_fact ih hkind

/-! ### Headers -/

def labelsOf (kept : List NativeEvidenceCandidate) : List String := (assignLabels kept).labels

def headerIn (library : Library) (kept : List NativeEvidenceCandidate)
    (labelled : NativeEvidenceCandidate × String) : Except EvidenceError (List String) :=
  headerOf library (assignLabels kept).sourceLabels labelled.1 labelled.2

/-- A header names a source chunk, behind the label and the kind. -/
def NamesSource (header : List String) (label : String) : Prop :=
  "source=" ++ label ∈ header.drop 2

/-- The timestamp is absent, or can be written. -/
def Readable (library : Library) (value : Option String) : Prop :=
  ∀ text, value = some text → ∃ timestamp, library.fromIsoFormat text = some (some timestamp)

/-- An item has a kind, and its timestamps can be written. -/
structure Renderable (library : Library) (candidate : NativeEvidenceCandidate) : Prop where
  kind : candidate.evidenceKind ≠ ""
  occurredStart : Readable library candidate.occurredStart
  occurredEnd : Readable library candidate.occurredEnd
  mentionedAt : Readable library candidate.mentionedAt

theorem timestampEntry_eq_ok {name : String} {value : Option String} {entries : List String}
    (hentry : timestampEntry library name value = .ok entries) :
    Readable library value ∧ ∀ entry ∈ entries, ∃ timestamp, entry = name ++ "=" ++ timestamp := by
  cases value with
  | none =>
    cases hentry
    exact ⟨nofun, fun _ hmem ↦ absurd hmem List.not_mem_nil⟩
  | some text =>
    simp only [timestampEntry, canonicalTimestamp] at hentry
    cases hread : library.fromIsoFormat text with
    | none =>
      rw [hread] at hentry
      exact nomatch hentry
    | some offset =>
      cases offset with
      | none =>
        rw [hread] at hentry
        exact nomatch hentry
      | some timestamp =>
        rw [hread] at hentry
        cases hentry
        refine ⟨fun other hother ↦ ⟨timestamp, Option.some.inj hother ▸ hread⟩, fun entry hmem ↦ ?_⟩
        exact ⟨timestamp, List.mem_singleton.mp hmem⟩

theorem exists_timestampEntry (name : String) {value : Option String}
    (hreadable : Readable library value) :
    ∃ entries, timestampEntry library name value = .ok entries := by
  cases value with
  | none => exact ⟨[], rfl⟩
  | some text =>
    obtain ⟨timestamp, hread⟩ := hreadable text rfl
    refine ⟨[name ++ "=" ++ timestamp], ?_⟩
    rw [timestampEntry, canonicalTimestamp, hread]
    rfl

theorem timestampEntry_error {name : String} {value : Option String} {failure : EvidenceError}
    (hentry : timestampEntry library name value = .error failure) :
    ∃ message, failure = .value message := by
  cases value with
  | none => exact nomatch hentry
  | some text =>
    simp only [timestampEntry, canonicalTimestamp] at hentry
    split at hentry <;> cases hentry
    · exact ⟨_, rfl⟩
    · exact ⟨_, rfl⟩

/-- No other part of a header is like one that names a source chunk. -/
theorem source_ne_entry {name label timestamp : String} (hname : name.toList.head? ≠ some 's')
    (hnonempty : name.toList ≠ []) : "source=" ++ label ≠ name ++ "=" ++ timestamp := by
  intro hsame
  have hheads := congrArg (fun text : String ↦ text.toList.head?) hsame
  simp only [String.toList_append] at hheads
  obtain ⟨char, chars, hchars⟩ := List.exists_cons_of_ne_nil hnonempty
  rw [hchars] at hheads hname
  exact hname (by simpa using hheads.symm)

theorem headerOf_eq_ok {sourceLabels : Dictionary String String} {label : String}
    {header : List String}
    (hheader : headerOf library sourceLabels candidate label = .ok header) :
    Renderable library candidate ∧
      header.take 2 = ["[" ++ label ++ "]", candidate.evidenceKind] ∧
      ∀ source, NamesSource header source ↔ sourceOf sourceLabels candidate = some source := by
  unfold headerOf at hheader
  split at hheader
  · exact nomatch hheader
  · next hkind =>
    obtain ⟨starts, hstarts, hheader⟩ := bind_eq_ok.mp hheader
    obtain ⟨ends, hends, hheader⟩ := bind_eq_ok.mp hheader
    obtain ⟨mentions, hmentions, hheader⟩ := bind_eq_ok.mp hheader
    cases hheader
    obtain ⟨hstart, hstartEntries⟩ := timestampEntry_eq_ok hstarts
    obtain ⟨hend, hendEntries⟩ := timestampEntry_eq_ok hends
    obtain ⟨hmentioned, hmentionedEntries⟩ := timestampEntry_eq_ok hmentions
    refine ⟨⟨hkind, hstart, hend, hmentioned⟩, rfl, fun source ↦ ?_⟩
    have hentry : ∀ entries : List String, ∀ name : String, name.toList.head? ≠ some 's' →
        name.toList ≠ [] → (∀ entry ∈ entries, ∃ timestamp, entry = name ++ "=" ++ timestamp) →
          "source=" ++ source ∉ entries := by
      intro entries name hname hnonempty hentries hmem
      obtain ⟨timestamp, hsame⟩ := hentries _ hmem
      exact source_ne_entry hname hnonempty hsame
    have hstartsNot := hentry starts "occurred_start" (by decide) (by decide) hstartEntries
    have hendsNot := hentry ends "occurred_end" (by decide) (by decide) hendEntries
    have hmentionsNot := hentry mentions "mentioned_at" (by decide) (by decide) hmentionedEntries
    have htruncated : "source=" ++ source ∉
        (if candidate.nativeTruncated then ["native_truncated=true"] else []) := by
      intro hmem
      split at hmem
      · exact @source_ne_entry "native_truncated" source "true" (by decide) (by decide)
          (List.mem_singleton.mp hmem)
      · exact List.not_mem_nil hmem
    unfold NamesSource
    simp only [List.cons_append, List.nil_append, List.drop_succ_cons, List.drop_zero,
      List.mem_append, hstartsNot, hendsNot, hmentionsNot, htruncated, or_false,
      Option.mem_toList, Option.map_eq_some_iff]
    constructor
    · rintro ⟨other, hother, hsame⟩
      rw [hother, (String.append_right_inj _).mp hsame]
    · exact fun hsource ↦ ⟨source, hsource, rfl⟩

theorem exists_headerOf (sourceLabels : Dictionary String String) (label : String)
    (hrenderable : Renderable library candidate) :
    ∃ header, headerOf library sourceLabels candidate label = .ok header := by
  obtain ⟨starts, hstarts⟩ := exists_timestampEntry "occurred_start" hrenderable.occurredStart
  obtain ⟨ends, hends⟩ := exists_timestampEntry "occurred_end" hrenderable.occurredEnd
  obtain ⟨mentions, hmentions⟩ := exists_timestampEntry "mentioned_at" hrenderable.mentionedAt
  unfold headerOf
  rw [if_neg hrenderable.kind, hstarts, hends, hmentions]
  exact ⟨_, rfl⟩

theorem headerOf_error {sourceLabels : Dictionary String String} {label : String}
    {failure : EvidenceError}
    (hheader : headerOf library sourceLabels candidate label = .error failure) :
    ∃ message, failure = .value message := by
  unfold headerOf at hheader
  split at hheader
  · cases hheader
    exact ⟨_, rfl⟩
  · rcases bind_eq_error.mp hheader with hfailure | ⟨starts, -, hheader⟩
    · exact timestampEntry_error hfailure
    rcases bind_eq_error.mp hheader with hfailure | ⟨ends, -, hheader⟩
    · exact timestampEntry_error hfailure
    rcases bind_eq_error.mp hheader with hfailure | ⟨mentions, -, hheader⟩
    · exact timestampEntry_error hfailure
    · exact nomatch hheader

/-! ### Sources -/

/-- A fact refers to a source chunk that is shown. -/
def HasSource (kept : List NativeEvidenceCandidate) (candidate : NativeEvidenceCandidate) : Prop :=
  ¬IsSourceChunk candidate ∧ ∃ reference, candidate.nativeReference = some reference ∧
    ∃ chunk ∈ kept, IsSourceChunk chunk ∧ chunk.nativeReference = some reference

/-- No source chunk that is shown has the empty reference, or every fact that is shown has a
reference. -/
def NamedSources (kept : List NativeEvidenceCandidate) : Prop :=
  (∀ chunk ∈ kept, IsSourceChunk chunk → chunk.nativeReference ≠ some "") ∨
    ∀ fact ∈ kept, ¬IsSourceChunk fact → fact.nativeReference ≠ none

variable {kept : List NativeEvidenceCandidate}

theorem sourceOf_eq_some {label : String}
    (hsource : sourceOf (assignLabels kept).sourceLabels candidate = some label) :
    ¬IsSourceChunk candidate ∧ ∃ (place : ℕ) (chunk : NativeEvidenceCandidate),
      kept[place]? = some chunk ∧ IsSourceChunk chunk ∧
        chunk.nativeReference = some (candidate.nativeReference.getD "") ∧
          (labelsOf kept)[place]? = some label := by
  unfold sourceOf at hsource
  split at hsource
  · exact nomatch hsource
  · next hkind => exact ⟨hkind, (labelled_assignLabels kept).sound _ _ hsource⟩

theorem exists_sourceOf {chunk : NativeEvidenceCandidate} (hkind : ¬IsSourceChunk candidate)
    (hchunk : chunk ∈ kept) (hsource : IsSourceChunk chunk)
    (hreference : chunk.nativeReference = some (candidate.nativeReference.getD "")) :
    ∃ label, sourceOf (assignLabels kept).sourceLabels candidate = some label := by
  unfold sourceOf
  rw [if_neg (show candidate.evidenceKind ≠ "source_chunk" from hkind)]
  exact Option.isSome_iff_exists.mp
    ((labelled_assignLabels kept).complete chunk hchunk hsource _ hreference)

/-- What a header shows of the source of an item. -/
def ShowsSource (kept : List NativeEvidenceCandidate) (candidate : NativeEvidenceCandidate)
    (header : List String) : Prop :=
  ((∃ label, NamesSource header label) ↔ HasSource kept candidate) ∧
    ∀ label, NamesSource header label → ∃ (place : ℕ) (chunk : NativeEvidenceCandidate),
      kept[place]? = some chunk ∧ IsSourceChunk chunk ∧
        chunk.nativeReference = candidate.nativeReference ∧ (labelsOf kept)[place]? = some label

/-- Every header shows the source of its item when no missing reference is taken for an empty
one. -/
theorem showsSource {header : List String} (hnamed : NamedSources kept) (hmem : candidate ∈ kept)
    (hnames : ∀ source, NamesSource header source ↔
      sourceOf (assignLabels kept).sourceLabels candidate = some source) :
    ShowsSource kept candidate header := by
  have hreference : ∀ chunk ∈ kept, IsSourceChunk chunk → ¬IsSourceChunk candidate →
      chunk.nativeReference = some (candidate.nativeReference.getD "") →
        candidate.nativeReference = chunk.nativeReference := by
    intro chunk hchunk hsource hkind hsame
    cases hnative : candidate.nativeReference with
    | some reference =>
      rw [hsame, hnative]
      rfl
    | none =>
      rw [hnative] at hsame
      rcases hnamed with hchunks | hfacts
      · exact absurd hsame (hchunks chunk hchunk hsource)
      · exact absurd hnative (hfacts candidate hmem hkind)
  constructor
  · constructor
    · rintro ⟨label, hlabel⟩
      obtain ⟨hkind, place, chunk, hplace, hsource, hsame, -⟩ :=
        sourceOf_eq_some ((hnames label).mp hlabel)
      have hchunk := List.mem_of_getElem? hplace
      exact ⟨hkind, _, (hreference chunk hchunk hsource hkind hsame).trans hsame, chunk, hchunk,
        hsource, hsame⟩
    · rintro ⟨hkind, reference, hnative, chunk, hchunk, hsource, hsame⟩
      have hdefault : chunk.nativeReference = some (candidate.nativeReference.getD "") := by
        rw [hsame, hnative]
        rfl
      obtain ⟨label, hlabel⟩ := exists_sourceOf hkind hchunk hsource hdefault
      exact ⟨label, (hnames label).mpr hlabel⟩
  · intro label hlabel
    obtain ⟨hkind, place, chunk, hplace, hsource, hsame, hlabels⟩ :=
      sourceOf_eq_some ((hnames label).mp hlabel)
    exact ⟨place, chunk, hplace, hsource,
      (hreference chunk (List.mem_of_getElem? hplace) hsource hkind hsame).symm, hlabels⟩

/-- A fact without a reference names the source chunk whose reference is empty. -/
theorem not_showsSource {header : List String} {chunk : NativeEvidenceCandidate}
    (hkind : ¬IsSourceChunk candidate) (hnone : candidate.nativeReference = none)
    (hchunk : chunk ∈ kept) (hsource : IsSourceChunk chunk)
    (hempty : chunk.nativeReference = some "")
    (hnames : ∀ source, NamesSource header source ↔
      sourceOf (assignLabels kept).sourceLabels candidate = some source) :
    ¬ShowsSource kept candidate header := by
  rintro ⟨hshows, -⟩
  have hdefault : chunk.nativeReference = some (candidate.nativeReference.getD "") := by
    rw [hempty, hnone]
    rfl
  obtain ⟨label, hlabel⟩ := exists_sourceOf hkind hchunk hsource hdefault
  obtain ⟨-, reference, hreference, -⟩ := hshows.mp ⟨label, (hnames label).mpr hlabel⟩
  rw [hnone] at hreference
  exact nomatch hreference

end Oamb.Workloads.EvidenceLabels
