import Mathlib.Data.List.Pairwise
import Mathlib.Data.List.Sort
import Oamb.Foundation.StatefulExecution

/-!
# The selection of cases

A run executes a slice of its frozen manifest: the cases that are requested, in the order of the
manifest, and the plans that own them, each with the requested ones of its cases. This is what is
selected (`of_selectCaseExecution`), and where the cases of the manifest stand plan by plan every
request of some of them in their order is accepted (`accepted_of_grouped`).
-/

set_option autoImplicit false

namespace Oamb.Runtime.CaseSelection

open Foundation.StatefulExecution

/-! ### Manifests and plans -/

/-- A plan of a manifest: its identity, and its cases in their order. -/
structure ManifestPlan where
  ingestionPlanId : String
  orderedCaseManifestEntryIds : List String
  deriving DecidableEq

/-- The identities of the cases of a manifest, and its plans. -/
structure CaseManifest where
  cases : List String
  ingestionPlans : List ManifestPlan

/-- A plan to ingest, with its sources. -/
structure IngestionPlan (σ : Type) where
  ingestionPlanId : String
  orderedMemberContextManifestEntryIds : List String
  sharedContextSha256 : String
  intendedSourceCount : ℕ
  orderedSourceUnits : List σ
  orderedCaseManifestEntryIds : List String
  deriving DecidableEq

/-- A case to answer, with its other members. -/
structure CasePlan (δ : Type) where
  caseManifestEntryId : String
  details : δ
  deriving DecidableEq

/-- A slice of a manifest. -/
structure SelectedCaseExecution (σ δ : Type) where
  ingestionPlans : List (IngestionPlan σ)
  casePlans : List (CasePlan δ)
  deriving DecidableEq

variable {σ δ : Type}

/-- The part of a plan that a manifest has. -/
def IngestionPlan.manifestPlan (plan : IngestionPlan σ) : ManifestPlan :=
  ⟨plan.ingestionPlanId, plan.orderedCaseManifestEntryIds⟩

/-- Refuse what does not hold. -/
def require (holds : Prop) [Decidable holds] (message : String) : Except String Unit :=
  if holds then .ok () else .error message

/-- Some of these cases are requested. -/
def Owns (requested caseIds : List String) : Prop :=
  ∃ caseId ∈ caseIds, caseId ∈ requested

instance instDecidableOwns (requested caseIds : List String) : Decidable (Owns requested caseIds) :=
  inferInstanceAs (Decidable (∃ caseId ∈ caseIds, caseId ∈ requested))

/-- A plan with those of its cases that are requested. -/
def IngestionPlan.restrict (plan : IngestionPlan σ) (requested : List String) : IngestionPlan σ :=
  { plan with
    orderedCaseManifestEntryIds :=
      plan.orderedCaseManifestEntryIds.filter fun caseId ↦ caseId ∈ requested }

/-- The plans that own a case that is requested. -/
def selectedPlans (plans : List (IngestionPlan σ)) (requested : List String) :
    List (IngestionPlan σ) :=
  (plans.filter fun plan ↦ Owns requested plan.orderedCaseManifestEntryIds).map fun plan ↦
    plan.restrict requested

/-- The cases that are requested. -/
def selectedCasePlans (cases : List (CasePlan δ)) (requested : List String) : List (CasePlan δ) :=
  cases.filter fun case ↦ case.caseManifestEntryId ∈ requested

/-- Select the cases of a manifest that are requested, with the plans that own them. -/
def selectCaseExecution (manifest : CaseManifest) (plans : List (IngestionPlan σ))
    (cases : List (CasePlan δ)) (requested : List String) :
    Except String (SelectedCaseExecution σ δ) := do
  require manifest.cases.Nodup "case manifest identities are duplicated"
  require (requested ≠ [] ∧ requested.Nodup) "case selection must be nonempty and unique"
  require (∀ caseId ∈ requested, caseId ∈ manifest.cases)
    "case selection contains an unknown identity"
  let indexes := requested.map manifest.cases.idxOf
  require (indexes = indexes.insertionSort (· ≤ ·)) "case selection differs from manifest order"
  require (cases.map CasePlan.caseManifestEntryId = manifest.cases)
    "runtime cases differ from the frozen manifest"
  let planIds := plans.map IngestionPlan.ingestionPlanId
  require (planIds = manifest.ingestionPlans.map ManifestPlan.ingestionPlanId ∧ planIds.Nodup)
    "runtime ingestion plans differ from the frozen manifest"
  require (∀ pair ∈ manifest.ingestionPlans.zip plans,
      pair.2.orderedCaseManifestEntryIds = pair.1.orderedCaseManifestEntryIds)
    "runtime ingestion case binding differs from the manifest"
  let ingestionPlans := selectedPlans plans requested
  let casePlans := selectedCasePlans cases requested
  require (ingestionPlans.flatMap IngestionPlan.orderedCaseManifestEntryIds = requested ∧
      casePlans.map CasePlan.caseManifestEntryId = requested)
    "selected execution does not close the requested cases"
  pure ⟨ingestionPlans, casePlans⟩

theorem require_eq_ok {holds : Prop} [Decidable holds] {message : String} {value : Unit} :
    require holds message = .ok value ↔ holds := by
  by_cases hholds : holds
  · exact ⟨fun _ ↦ hholds, fun _ ↦ if_pos hholds⟩
  · rw [require, if_neg hholds]
    exact ⟨(nomatch ·), fun hsome ↦ absurd hsome hholds⟩

/-! ### Slices of a list -/

/-- The members of a list that are among those of one of its sublists are that sublist. -/
theorem filter_of_sublist {requested identities : List String} (hidentities : identities.Nodup)
    (hsub : requested.Sublist identities) :
    (identities.filter fun identity ↦ identity ∈ requested) = requested := by
  induction hsub with
  | slnil => rfl
  | @cons requested identities identity hsub ih =>
    have hnew : identity ∉ requested := fun hmem ↦
      (List.nodup_cons.mp hidentities).1 (hsub.subset hmem)
    rw [List.filter_cons_of_neg (by simpa using hnew)]
    exact ih hidentities.of_cons
  | @cons_cons requested identities identity hsub ih =>
    rw [List.filter_cons_of_pos (by simp)]
    refine congrArg (identity :: ·) (Eq.trans ?_ (ih hidentities.of_cons))
    refine List.filter_congr fun other hother ↦ ?_
    have hne : other ≠ identity := fun heq ↦ (List.nodup_cons.mp hidentities).1 (heq ▸ hother)
    simp [hne]

/-- Identities stand in the order of a list without repetitions when their indexes are sorted. -/
theorem sublist_iff_sorted {requested identities : List String} (hidentities : identities.Nodup)
    (hrequested : requested.Nodup) (hknown : ∀ identity ∈ requested, identity ∈ identities) :
    requested.Sublist identities ↔ requested.map identities.idxOf =
      (requested.map identities.idxOf).insertionSort (· ≤ ·) := by
  have hordered : identities.Pairwise fun first second ↦
      identities.idxOf first ≤ identities.idxOf second := by
    rw [List.pairwise_iff_getElem]
    intro first second hfirst hsecond hlt
    rw [hidentities.idxOf_getElem, hidentities.idxOf_getElem]
    exact hlt.le
  constructor
  · intro hsub
    refine (List.Pairwise.insertionSort_eq ?_).symm
    exact List.pairwise_map.mpr (hordered.sublist hsub)
  · intro hsorted
    have hpairwise := List.pairwise_insertionSort (· ≤ ·) (requested.map identities.idxOf)
    rw [← hsorted, List.pairwise_map] at hpairwise
    have hperm : requested.Perm (identities.filter fun identity ↦ identity ∈ requested) := by
      refine (List.perm_ext_iff_of_nodup hrequested (hidentities.filter _)).mpr fun identity ↦ ?_
      rw [List.mem_filter, decide_eq_true_eq]
      exact ⟨fun hmem ↦ ⟨hknown identity hmem, hmem⟩, And.right⟩
    have hantisymm : ∀ first second, first ∈ requested →
        second ∈ identities.filter (fun identity ↦ identity ∈ requested) →
        identities.idxOf first ≤ identities.idxOf second →
        identities.idxOf second ≤ identities.idxOf first → first = second := by
      intro first second hfirst _ hle hge
      exact (List.idxOf_inj (hknown first hfirst)).mp (le_antisymm hle hge)
    have heq := List.Perm.eq_of_pairwise hantisymm hpairwise
      (hordered.sublist List.filter_sublist) hperm
    rw [heq]
    exact List.filter_sublist

/-- What is left of lists without what is not requested, one after the other. -/
theorem flatMap_filter_owning (requested : List String) (lists : List (List String)) :
    ((lists.filter fun caseIds ↦ Owns requested caseIds).flatMap fun caseIds ↦
        caseIds.filter fun caseId ↦ caseId ∈ requested) =
      lists.flatten.filter fun caseId ↦ caseId ∈ requested := by
  induction lists with
  | nil => rfl
  | cons caseIds lists ih =>
    rw [List.flatten_cons, List.filter_append, ← ih]
    by_cases howns : Owns requested caseIds
    · rw [List.filter_cons_of_pos (by simpa using howns), List.flatMap_cons]
    · have hnone : (caseIds.filter fun caseId ↦ caseId ∈ requested) = [] := by
        refine List.filter_eq_nil_iff.mpr fun caseId hcase hrequested ↦ howns ?_
        exact ⟨caseId, hcase, of_decide_eq_true hrequested⟩
      rw [List.filter_cons_of_neg (by simpa using howns), hnone, List.nil_append]

/-! ### The slice of a manifest -/

section Slice

variable {manifest : CaseManifest} {plans : List (IngestionPlan σ)} {cases : List (CasePlan δ)}
  {requested : List String} {selected : SelectedCaseExecution σ δ}

/-- The plans and the cases of a run are those of its manifest, each there once. -/
structure Runs (manifest : CaseManifest) (plans : List (IngestionPlan σ))
    (cases : List (CasePlan δ)) : Prop where
  cases_nodup : manifest.cases.Nodup
  plans_nodup : (manifest.ingestionPlans.map ManifestPlan.ingestionPlanId).Nodup
  cases_eq : cases.map CasePlan.caseManifestEntryId = manifest.cases
  plans_eq : plans.map IngestionPlan.manifestPlan = manifest.ingestionPlans

/-- The cases of a manifest stand plan by plan, in the order of its plans. -/
def CaseManifest.Grouped (manifest : CaseManifest) : Prop :=
  manifest.ingestionPlans.flatMap ManifestPlan.orderedCaseManifestEntryIds = manifest.cases

/-- What is selected is what is requested: its cases and the plans that own them, in the order of
the manifest, each case in one plan, with nothing of a plan changed but its cases. -/
structure Selects (manifest : CaseManifest) (plans : List (IngestionPlan σ))
    (cases : List (CasePlan δ)) (requested : List String)
    (selected : SelectedCaseExecution σ δ) : Prop where
  ordered : requested.Sublist manifest.cases
  casePlans : selected.casePlans.Sublist cases
  caseIds : selected.casePlans.map CasePlan.caseManifestEntryId = requested
  planIds : selected.ingestionPlans.map IngestionPlan.ingestionPlanId =
    (manifest.ingestionPlans.filter fun plan ↦
      Owns requested plan.orderedCaseManifestEntryIds).map ManifestPlan.ingestionPlanId
  ingestionPlans : ∀ plan ∈ selected.ingestionPlans, ∃ owner ∈ plans,
    plan = owner.restrict requested
  owner : ∀ caseId ∈ requested, ∃! plan, plan ∈ selected.ingestionPlans ∧
    caseId ∈ plan.orderedCaseManifestEntryIds

/-- Plans have the identities and the cases of those of a manifest when they are its plans. -/
theorem manifestPlans_eq_iff (plans : List (IngestionPlan σ)) (manifestPlans : List ManifestPlan) :
    plans.map IngestionPlan.manifestPlan = manifestPlans ↔
      plans.map IngestionPlan.ingestionPlanId =
          manifestPlans.map ManifestPlan.ingestionPlanId ∧
        ∀ pair ∈ manifestPlans.zip plans,
          pair.2.orderedCaseManifestEntryIds = pair.1.orderedCaseManifestEntryIds := by
  induction plans generalizing manifestPlans with
  | nil => cases manifestPlans <;> simp
  | cons plan plans ih =>
    cases manifestPlans with
    | nil => simp
    | cons manifestPlan manifestPlans =>
      simp only [List.map_cons, List.cons.injEq, ih, List.zip_cons_cons, List.forall_mem_cons]
      constructor
      · rintro ⟨rfl, hids, hcases⟩
        exact ⟨⟨rfl, hids⟩, rfl, hcases⟩
      · rintro ⟨⟨hid, hids⟩, hcase, hcases⟩
        exact ⟨congrArg₂ ManifestPlan.mk hid hcase, hids, hcases⟩

/-- The cases of a run that are selected have the identities that are requested. -/
theorem selectedCasePlans_ids (hcases : cases.map CasePlan.caseManifestEntryId = manifest.cases)
    (hnodup : manifest.cases.Nodup) (hsub : requested.Sublist manifest.cases) :
    (selectedCasePlans cases requested).map CasePlan.caseManifestEntryId = requested := by
  have hfilter := List.filter_map (f := CasePlan.caseManifestEntryId)
    (p := fun caseId ↦ decide (caseId ∈ requested)) (l := cases)
  rw [hcases, filter_of_sublist hnodup hsub] at hfilter
  exact hfilter.symm

/-- What is checked of a request that is accepted. -/
theorem selectCaseExecution_eq_ok :
    selectCaseExecution manifest plans cases requested = .ok selected ↔
      Runs manifest plans cases ∧ requested ≠ [] ∧ requested.Sublist manifest.cases ∧
        (selectedPlans plans requested).flatMap IngestionPlan.orderedCaseManifestEntryIds =
          requested ∧
        selected = ⟨selectedPlans plans requested, selectedCasePlans cases requested⟩ := by
  simp only [selectCaseExecution, bind_eq_ok, require_eq_ok, exists_const]
  constructor
  · rintro ⟨hnodup, ⟨hnonempty, hunique⟩, hknown, hsorted, hcases, ⟨hids, hplans⟩, hbound,
      ⟨hclosed, -⟩, hselected⟩
    refine ⟨⟨hnodup, hids ▸ hplans, hcases, (manifestPlans_eq_iff _ _).mpr ⟨hids, hbound⟩⟩,
      hnonempty, (sublist_iff_sorted hnodup hunique hknown).mpr hsorted, hclosed, ?_⟩
    exact (Except.ok.inj hselected).symm
  · rintro ⟨hruns, hnonempty, hsub, hclosed, rfl⟩
    have hunique := hruns.cases_nodup.sublist hsub
    obtain ⟨hids, hbound⟩ := (manifestPlans_eq_iff _ _).mp hruns.plans_eq
    exact ⟨hruns.cases_nodup, ⟨hnonempty, hunique⟩, fun caseId hcase ↦ hsub.subset hcase,
      (sublist_iff_sorted hruns.cases_nodup hunique fun caseId hcase ↦ hsub.subset hcase).mp hsub,
      hruns.cases_eq, ⟨hids, hids ▸ hruns.plans_nodup⟩, hbound,
      ⟨hclosed, selectedCasePlans_ids hruns.cases_eq hruns.cases_nodup hsub⟩, rfl⟩

/-- What is selected for a request that is accepted is what is requested. -/
theorem of_selectCaseExecution
    (haccepted : selectCaseExecution manifest plans cases requested = .ok selected) :
    Selects manifest plans cases requested selected := by
  obtain ⟨hruns, -, hsub, hclosed, rfl⟩ := selectCaseExecution_eq_ok.mp haccepted
  have hids : (selectedPlans plans requested).map IngestionPlan.ingestionPlanId =
      (manifest.ingestionPlans.filter fun plan ↦
        Owns requested plan.orderedCaseManifestEntryIds).map ManifestPlan.ingestionPlanId := by
    rw [← hruns.plans_eq, List.filter_map, List.map_map, selectedPlans, List.map_map]
    rfl
  have howner : ∀ plan ∈ selectedPlans plans requested, ∃ owner ∈ plans,
      plan = owner.restrict requested := by
    intro plan hplan
    obtain ⟨owner, howner, rfl⟩ := List.mem_map.mp hplan
    exact ⟨owner, (List.mem_filter.mp howner).1, rfl⟩
  refine ⟨hsub, List.filter_sublist,
    selectedCasePlans_ids hruns.cases_eq hruns.cases_nodup hsub, hids, howner, ?_⟩
  intro caseId hcase
  rw [← hclosed] at hcase
  obtain ⟨plan, hplan, howned⟩ := List.mem_flatMap.mp hcase
  refine ⟨plan, ⟨hplan, howned⟩, fun other hother ↦ ?_⟩
  -- A case of two plans would be there twice among the cases of the selected plans.
  by_contra hne
  have hunique := hruns.cases_nodup.sublist hsub
  rw [← hclosed] at hunique
  have hsymm : Std.Symm (Function.onFun List.Disjoint fun plan : IngestionPlan σ ↦
      plan.orderedCaseManifestEntryIds) := ⟨fun _ _ hdisjoint ↦ List.disjoint_symm hdisjoint⟩
  have hdisjoint := (List.nodup_flatMap.mp hunique).2.forall hother.1 hplan hne
  exact hdisjoint hother.2 howned

/-- Where the cases of a manifest stand plan by plan, a request of some of them in their order is
accepted. -/
theorem accepted_of_grouped (hruns : Runs manifest plans cases) (hgrouped : manifest.Grouped)
    (hnonempty : requested ≠ []) (hsub : requested.Sublist manifest.cases) :
    ∃ selected, selectCaseExecution manifest plans cases requested = .ok selected := by
  refine ⟨_, selectCaseExecution_eq_ok.mpr ⟨hruns, hnonempty, hsub, ?_, rfl⟩⟩
  have hflat : (plans.map IngestionPlan.orderedCaseManifestEntryIds).flatten =
      manifest.cases := by
    rw [← hgrouped, ← hruns.plans_eq, List.flatMap_map, List.flatMap_def]
    rfl
  calc (selectedPlans plans requested).flatMap IngestionPlan.orderedCaseManifestEntryIds
      = ((plans.map IngestionPlan.orderedCaseManifestEntryIds).filter fun caseIds ↦
          Owns requested caseIds).flatMap fun caseIds ↦
            caseIds.filter fun caseId ↦ caseId ∈ requested := by
        rw [List.filter_map, List.flatMap_map, selectedPlans, List.flatMap_map]
        rfl
    _ = manifest.cases.filter fun caseId ↦ caseId ∈ requested := by
        rw [flatMap_filter_owning, hflat]
    _ = requested := filter_of_sublist hruns.cases_nodup hsub

end Slice

/-- What is selected is what is requested, and of a manifest whose cases stand plan by plan every
request of one or more of its cases in their order is accepted. -/
theorem selection_exact (manifest : CaseManifest) (plans : List (IngestionPlan σ))
    (cases : List (CasePlan δ)) (requested : List String) :
    (∀ selected, selectCaseExecution manifest plans cases requested = .ok selected →
        Selects manifest plans cases requested selected) ∧
      (Runs manifest plans cases → manifest.Grouped → requested ≠ [] →
        requested.Sublist manifest.cases →
        ∃ selected, selectCaseExecution manifest plans cases requested = .ok selected) :=
  ⟨fun _ ↦ of_selectCaseExecution, accepted_of_grouped⟩

/-! ### A manifest of two plans -/

section Sample

/-- Two plans, one of two cases and one of one. -/
def sampleManifest : CaseManifest :=
  ⟨["a", "b", "c"], [⟨"first", ["a", "b"]⟩, ⟨"second", ["c"]⟩]⟩

/-- The plans of the sample, each with a source. -/
def samplePlans : List (IngestionPlan ℕ) :=
  [⟨"first", ["x"], "h", 1, [7], ["a", "b"]⟩, ⟨"second", ["y"], "h", 1, [8], ["c"]⟩]

/-- The cases of the sample. -/
def sampleCases : List (CasePlan Unit) :=
  [⟨"a", ()⟩, ⟨"b", ()⟩, ⟨"c", ()⟩]

theorem selection_exact_sample :
    Selects sampleManifest samplePlans sampleCases ["b", "c"]
        ⟨[⟨"first", ["x"], "h", 1, [7], ["b"]⟩, ⟨"second", ["y"], "h", 1, [8], ["c"]⟩],
          [⟨"b", ()⟩, ⟨"c", ()⟩]⟩ ∧
      ∃ selected, selectCaseExecution sampleManifest samplePlans sampleCases ["b", "c"] =
        .ok selected :=
  ⟨(selection_exact sampleManifest samplePlans sampleCases ["b", "c"]).1 _
      (selectCaseExecution_eq_ok.mpr ⟨⟨by decide, by decide, by decide, by decide⟩, by decide,
        by decide, by decide, by decide⟩),
    (selection_exact sampleManifest samplePlans sampleCases ["b", "c"]).2
      ⟨by decide, by decide, by decide, by decide⟩ rfl (by decide) (by decide)⟩

/-- A request of no cases is not accepted, though the cases of the manifest stand plan by plan. -/
theorem empty_request_refused :
    ¬ ∀ (manifest : CaseManifest) (plans : List (IngestionPlan ℕ)) (cases : List (CasePlan Unit))
        (requested : List String), Runs manifest plans cases → manifest.Grouped →
      requested.Nodup → requested.Sublist manifest.cases →
      ∃ selected, selectCaseExecution manifest plans cases requested = .ok selected := by
  intro hall
  obtain ⟨selected, hselected⟩ := hall sampleManifest samplePlans sampleCases []
    ⟨by decide, by decide, by decide, by decide⟩ rfl List.nodup_nil (List.nil_sublist _)
  exact (selectCaseExecution_eq_ok.mp hselected).2.1 rfl

end Sample

end Oamb.Runtime.CaseSelection
