import Mathlib.Tactic.Ring
import Oamb.Foundation.StatefulExecution
import Oamb.Workloads.Mab65Reduction

/-!
# What the index of a benchmark says

The reduction never fails. An index that it gives is the weighted mean of the capabilities, each of
which is a mean of means of the case metrics; it stands between zero and one hundred, follows every
metric, and does not depend on the order in which metrics, cases and plans are listed
(`reduceMab65_sound`). A case without a metric, or a plan that is not ready, leaves no index.
-/

set_option autoImplicit false

namespace Oamb.Workloads.Mab65Guarantees

open Foundation Foundation.Means Foundation.StatefulExecution Mab65Reduction

variable {library : Library} {bundle : MabManifestBundle} {metrics : Dictionary String ℚ}
  {run : RunFacts}

/-! ### Means of means -/

section Means

variable (bundle : MabManifestBundle) (metrics : Dictionary String ℚ)

def metricOf (caseId : String) : ℚ := (metrics.lookup caseId).getD 0

def planMean (plan : MabPlan) : ℚ := mean ((planCaseIds plan).map (metricOf metrics))

def componentMean (component : String) : ℚ :=
  mean ((plansOf bundle component).map (planMean metrics))

def ttlMean : ℚ := (componentMean bundle metrics "icl" + componentMean bundle metrics "recsys") / 2

/-- The score of a plan, its mean. -/
def meanOfPlan (plan : MabPlan) : MabPlanScore where
  planManifestEntryId := plan.manifest.planManifestEntryId
  component := plan.component
  caseCount := (planCaseIds plan).length
  score := planMean metrics plan

/-- The score of a component, its mean. -/
def meanOfComponent (component : String) : MabComponentScore where
  component
  planCount := (plansOf bundle component).length
  caseCount := ((plansOf bundle component).map fun plan ↦ (planCaseIds plan).length).sum
  score := componentMean bundle metrics component

/-- The capabilities have equal weights. -/
def meansOfCapabilities : List MabCapabilityContribution :=
  [capability "ar" (componentMean bundle metrics "ar"), capability "ttl" (ttlMean bundle metrics),
    capability "lru" (componentMean bundle metrics "lru"),
    capability "cr_sf" (componentMean bundle metrics "cr_sf")]

/-- The weighted mean of some capabilities. -/
def weightedMean (capabilities : List MabCapabilityContribution) : ℚ :=
  (capabilities.map fun item ↦ item.weight * item.score).sum /
    (capabilities.map MabCapabilityContribution.weight).sum

def indexOf : ℚ := 100 * weightedMean (meansOfCapabilities bundle metrics)

/-- The reduction that has every mean. -/
def completeReduction : Reduction where
  reducerId := mab65IndexId
  available := true
  unavailableReason := none
  plans := bundle.plans.map (meanOfPlan metrics)
  components := componentOrder.map (meanOfComponent bundle metrics)
  ttlScore := some (ttlMean bundle metrics)
  capabilities := meansOfCapabilities bundle metrics
  indexValue := some (indexOf bundle metrics)

end Means

theorem indexOf_eq : indexOf bundle metrics =
    100 * ((meansOfCapabilities bundle metrics).map
      MabCapabilityContribution.weightedContribution).sum := by
  simp only [indexOf, weightedMean, meansOfCapabilities, capability, List.map_cons, List.map_nil,
    List.sum_cons, List.sum_nil]
  ring

/-- Every metric is between zero and one. -/
def Bounded (metrics : Dictionary String ℚ) : Prop :=
  ∀ caseId metric, metrics.lookup caseId = some metric → 0 ≤ metric ∧ metric ≤ 1

theorem metricOf_bounds (hbounded : Bounded metrics) (caseId : String) :
    0 ≤ metricOf metrics caseId ∧ metricOf metrics caseId ≤ 1 := by
  unfold metricOf
  cases hlookup : metrics.lookup caseId with
  | none => exact ⟨le_refl _, zero_le_one⟩
  | some metric => exact hbounded caseId metric hlookup

theorem planMean_bounds (hbounded : Bounded metrics) (plan : MabPlan) :
    0 ≤ planMean metrics plan ∧ planMean metrics plan ≤ 1 := by
  refine ⟨mean_nonneg fun value hvalue ↦ ?_, mean_le zero_le_one fun value hvalue ↦ ?_⟩ <;>
    obtain ⟨caseId, -, rfl⟩ := List.mem_map.mp hvalue
  · exact (metricOf_bounds hbounded caseId).1
  · exact (metricOf_bounds hbounded caseId).2

theorem componentMean_bounds (bundle : MabManifestBundle) (hbounded : Bounded metrics)
    (component : String) :
    0 ≤ componentMean bundle metrics component ∧ componentMean bundle metrics component ≤ 1 := by
  refine ⟨mean_nonneg fun value hvalue ↦ ?_, mean_le zero_le_one fun value hvalue ↦ ?_⟩ <;>
    obtain ⟨plan, -, rfl⟩ := List.mem_map.mp hvalue
  · exact (planMean_bounds hbounded plan).1
  · exact (planMean_bounds hbounded plan).2

theorem indexOf_bounds (hbounded : Bounded metrics) :
    0 ≤ indexOf bundle metrics ∧ indexOf bundle metrics ≤ 100 := by
  have har := componentMean_bounds bundle hbounded "ar"
  have hicl := componentMean_bounds bundle hbounded "icl"
  have hrecsys := componentMean_bounds bundle hbounded "recsys"
  have hlru := componentMean_bounds bundle hbounded "lru"
  have hcrSf := componentMean_bounds bundle hbounded "cr_sf"
  rw [indexOf_eq]
  simp only [meansOfCapabilities, capability, ttlMean, List.map_cons, List.map_nil, List.sum_cons,
    List.sum_nil]
  constructor <;> linarith

/-! ### What the means follow -/

section Order

variable {others : Dictionary String ℚ}

theorem planMean_mono (hle : ∀ caseId, metricOf metrics caseId ≤ metricOf others caseId)
    (plan : MabPlan) : planMean metrics plan ≤ planMean others plan :=
  mean_mono fun caseId _ ↦ hle caseId

theorem componentMean_mono (bundle : MabManifestBundle)
    (hle : ∀ caseId, metricOf metrics caseId ≤ metricOf others caseId) (component : String) :
    componentMean bundle metrics component ≤ componentMean bundle others component :=
  mean_mono fun plan _ ↦ planMean_mono hle plan

theorem indexOf_mono (hle : ∀ caseId, metricOf metrics caseId ≤ metricOf others caseId) :
    indexOf bundle metrics ≤ indexOf bundle others := by
  have har := componentMean_mono bundle hle "ar"
  have hicl := componentMean_mono bundle hle "icl"
  have hrecsys := componentMean_mono bundle hle "recsys"
  have hlru := componentMean_mono bundle hle "lru"
  have hcrSf := componentMean_mono bundle hle "cr_sf"
  rw [indexOf_eq, indexOf_eq]
  simp only [meansOfCapabilities, capability, ttlMean, List.map_cons, List.map_nil, List.sum_cons,
    List.sum_nil]
  linarith

/-- Two plans of one component have the same cases, in whatever order. -/
def SameCases (plan other : MabPlan) : Prop :=
  plan.component = other.component ∧ (planCaseIds plan).Perm (planCaseIds other)

/-- Two benchmarks have the same plans, in whatever order. -/
def SamePlans (bundle other : MabManifestBundle) : Prop :=
  ∃ plans, bundle.plans.Perm plans ∧ List.Forall₂ SameCases plans other.plans

theorem planMean_eq {plan other : MabPlan} (hsame : SameCases plan other) :
    planMean metrics plan = planMean metrics other :=
  mean_perm (hsame.2.map _)

theorem map_planMean_eq {plans others : List MabPlan}
    (hsame : List.Forall₂ SameCases plans others) (component : String) :
    ((plans.filter fun plan ↦ plan.component = component).map (planMean metrics)) =
      (others.filter fun plan ↦ plan.component = component).map (planMean metrics) := by
  induction hsame with
  | nil => rfl
  | @cons plan other plans others hfirst hrest ih =>
    rw [List.filter_cons, List.filter_cons, ← hfirst.1]
    by_cases hcomponent : plan.component = component
    · rw [if_pos (decide_eq_true hcomponent), if_pos (decide_eq_true hcomponent), List.map_cons,
        List.map_cons, planMean_eq hfirst, ih]
    · rw [if_neg (mt of_decide_eq_true hcomponent), if_neg (mt of_decide_eq_true hcomponent), ih]

theorem componentMean_eq {other : MabManifestBundle} (hsame : SamePlans bundle other)
    (component : String) :
    componentMean bundle metrics component = componentMean other metrics component := by
  obtain ⟨plans, hperm, hcases⟩ := hsame
  unfold componentMean plansOf
  rw [mean_perm ((hperm.filter _).map _), map_planMean_eq hcases]

theorem indexOf_eq_of_samePlans {other : MabManifestBundle} (hsame : SamePlans bundle other) :
    indexOf bundle metrics = indexOf other metrics := by
  unfold indexOf meansOfCapabilities ttlMean
  simp only [componentMean_eq hsame]

end Order

/-! ### The checks -/

theorem ite_some_eq_none {condition : Prop} [Decidable condition] {reason : String}
    {rest : Option String} :
    (if condition then some reason else rest) = none ↔ ¬condition ∧ rest = none := by
  by_cases hcondition : condition
  · rw [if_pos hcondition]
    exact ⟨nofun, fun hboth ↦ absurd hcondition hboth.1⟩
  · rw [if_neg hcondition]
    exact ⟨fun hrest ↦ ⟨hcondition, hrest⟩, And.right⟩

theorem sameMembers_eq_true {first second : List String} :
    sameMembers first second = true ↔ ∀ text, text ∈ first ↔ text ∈ second := by
  unfold sameMembers
  simp only [Bool.and_eq_true, List.all_eq_true, decide_eq_true_eq]
  exact ⟨fun hboth text ↦ ⟨hboth.1 text, hboth.2 text⟩,
    fun hiff ↦ ⟨fun text ↦ (hiff text).mp, fun text ↦ (hiff text).mpr⟩⟩

/-- The metrics are those of the cases, and each is between zero and one. -/
structure Measured (bundle : MabManifestBundle) (metrics : Dictionary String ℚ) : Prop where
  keys : ∀ caseId, caseId ∈ metrics.keys ↔ caseId ∈ caseIds bundle
  bounded : Bounded metrics

/-- The checks that do not read the metrics. -/
structure InOrder (library : Library) (bundle : MabManifestBundle) (run : RunFacts) : Prop where
  manifest : bundle.caseManifest.manifestId = "mab65-v1"
  identity : manifestIdentityIsExact library bundle = true
  caseManifest : caseManifestIsExact library bundle = true
  catalog : bundle.entityCatalogSha256 = run.expectedCatalogSha256
  unicode : bundle.unicodeFingerprint = run.expectedUnicodeFingerprint
  controls : run.comparisonControlsClosed = true
  interaction : run.observedInteractionFingerprint = run.expectedInteractionFingerprint
  capsule : run.capsuleValid = true
  queryState : run.queryStateUnchanged = true
  topology : topologyIsExact library bundle = true
  metricMapping : metricMappingIsExact bundle = true
  ready : ∀ planId, planId ∈ run.readyPlanManifestIds ↔ planId ∈ planIds bundle

theorem bounded_iff : Bounded metrics ↔
    (metrics.entries.any fun entry ↦ entry.2 < 0 || 1 < entry.2) = false := by
  simp only [List.any_eq_false, Bool.or_eq_true, decide_eq_true_eq, not_or, not_lt]
  constructor
  · exact fun hbounded entry hentry ↦
      hbounded entry.1 entry.2 (AList.mem_lookup_iff.mpr hentry)
  · exact fun hentries caseId metric hlookup ↦
      hentries ⟨caseId, metric⟩ (AList.mem_lookup_iff.mp hlookup)

theorem measured_iff : Measured bundle metrics ↔
    (!sameMembers metrics.keys (caseIds bundle) ||
      metrics.entries.any fun entry ↦ entry.2 < 0 || 1 < entry.2) = false := by
  rw [Bool.or_eq_false_iff, Bool.not_eq_false', sameMembers_eq_true, ← bounded_iff]
  exact ⟨fun hmeasured ↦ ⟨hmeasured.keys, hmeasured.bounded⟩, fun hboth ↦ ⟨hboth.1, hboth.2⟩⟩

theorem refusal_eq_none_iff : refusal library bundle metrics run = none ↔
    InOrder library bundle run ∧ Measured bundle metrics := by
  unfold refusal
  simp only [ite_some_eq_none, Bool.not_eq_true, Bool.not_eq_false', ← measured_iff,
    sameMembers_eq_true, not_not, and_true]
  constructor
  · rintro ⟨hmanifest, hidentity, hcase, hcatalog, hunicode, hcontrols, hinteraction, hcapsule,
      hquery, htopology, hmapping, hmeasured, hready⟩
    exact ⟨⟨hmanifest, hidentity, hcase, hcatalog, hunicode, hcontrols, hinteraction, hcapsule,
      hquery, htopology, hmapping, hready⟩, hmeasured⟩
  · rintro ⟨horder, hmeasured⟩
    exact ⟨horder.manifest, horder.identity, horder.caseManifest, horder.catalog, horder.unicode,
      horder.controls, horder.interaction, horder.capsule, horder.queryState, horder.topology,
      horder.metricMapping, hmeasured, horder.ready⟩

/-! ### The shape of the benchmark -/

/-- There are sixty-five cases, each of one plan; no plan is empty, and no component is. -/
structure Whole (bundle : MabManifestBundle) : Prop where
  cases : bundle.cases.length = 65
  distinct : (caseIds bundle).Nodup
  planned : (bundle.plans.flatMap planCaseIds).Perm (caseIds bundle)
  planCases : ∀ plan ∈ bundle.plans, planCaseIds plan ≠ []
  plans : ∀ component ∈ componentOrder, plansOf bundle component ≠ []

theorem plans_of_counts (hcounts : countsAreExact bundle = true) :
    ∀ component ∈ componentOrder, plansOf bundle component ≠ [] := by
  unfold countsAreExact at hcounts
  simp only [Bool.and_eq_true, expectedPlanCounts, List.all_cons, List.all_nil,
    decide_eq_true_eq] at hcounts
  obtain ⟨⟨-, har, hicl, hrecsys, hlru, hcrSf, -⟩, -⟩ := hcounts
  intro component hcomponent hempty
  simp only [componentOrder, List.mem_cons, List.not_mem_nil, or_false] at hcomponent
  rcases hcomponent with rfl | rfl | rfl | rfl | rfl <;> simp_all

theorem planned_of_counts (hcounts : countsAreExact bundle = true) :
    (caseIds bundle).Nodup ∧ (bundle.plans.flatMap planCaseIds).Perm (caseIds bundle) := by
  unfold countsAreExact at hcounts
  simp only [Bool.and_eq_true, decide_eq_true_eq, List.all_eq_true] at hcounts
  obtain ⟨⟨⟨⟨⟨⟨hsame, hdedup⟩, hcases⟩, -⟩, -⟩, -⟩, -⟩ := hcounts
  have hnodup : (bundle.plans.flatMap planCaseIds).Nodup := by
    have hself := (List.dedup_sublist (bundle.plans.flatMap planCaseIds)).eq_of_length hdedup
    exact List.dedup_eq_self.mp hself
  have hperm : (bundle.plans.flatMap planCaseIds).Perm (caseIds bundle) := by
    refine (List.subperm_of_subset hnodup hcases).perm_of_length_le ?_
    rw [hsame, caseIds, List.length_map]
  exact ⟨hperm.nodup_iff.mp hnodup, hperm⟩

theorem whole_of_topology (htopology : topologyIsExact library bundle = true) : Whole bundle := by
  unfold topologyIsExact at htopology
  simp only [Bool.and_eq_true, List.all_eq_true] at htopology
  obtain ⟨⟨⟨hinventory, -⟩, hplans⟩, hcounts⟩ := htopology
  have hlength : bundle.cases.length = 65 := by
    unfold inventoryIsExact at hinventory
    simp only [Bool.and_eq_true, decide_eq_true_eq] at hinventory
    exact hinventory.1.1.1.1.2
  obtain ⟨hdistinct, hplanned⟩ := planned_of_counts hcounts
  refine ⟨hlength, hdistinct, hplanned, fun plan hplan ↦ ?_, plans_of_counts hcounts⟩
  have hexact := (hplans plan hplan).1.1.2
  unfold planCasesAreExact at hexact
  exact of_decide_eq_true (Bool.and_eq_true_iff.mp hexact).1

/-! ### The reduction computes the means -/

theorem divided_eq {total : ℚ} {count : ℕ} (hcount : count ≠ 0) :
    divided total count = .ok (total / count) := if_neg hcount

/-- The metrics of the cases are there. -/
theorem mapM_item_eq {ids : List String} (hids : ∀ caseId ∈ ids, caseId ∈ metrics.keys) :
    ids.mapM (fun caseId ↦ item (metrics.lookup caseId) caseId) =
      .ok (ids.map (metricOf metrics)) := by
  rw [mapM_eq_ok, List.map_map]
  refine List.map_congr_left fun caseId hcaseId ↦ ?_
  obtain ⟨metric, hlookup⟩ := Option.isSome_iff_exists.mp
    (AList.lookup_isSome.mpr (hids caseId hcaseId))
  rw [hlookup, Function.comp_apply, metricOf, hlookup]
  rfl

theorem planScore_eq {plan : MabPlan} (hcases : planCaseIds plan ≠ [])
    (hids : ∀ caseId ∈ planCaseIds plan, caseId ∈ metrics.keys) :
    planScore metrics plan = .ok (meanOfPlan metrics plan) := by
  have hlength : (planCaseIds plan).length ≠ 0 := mt List.length_eq_zero_iff.mp hcases
  unfold planScore
  refine bind_eq_ok.mpr ⟨_, mapM_item_eq hids, bind_eq_ok.mpr ⟨_, divided_eq hlength, ?_⟩⟩
  rw [meanOfPlan, planMean, mean, List.length_map]
  rfl

theorem componentScore_eq {component : String} (hplans : plansOf bundle component ≠ []) :
    componentScore (bundle.plans.map (meanOfPlan metrics)) component =
      .ok (meanOfComponent bundle metrics component) := by
  have hfilter : (bundle.plans.map (meanOfPlan metrics)).filter
      (fun plan ↦ plan.component = component) =
        (plansOf bundle component).map (meanOfPlan metrics) := by
    rw [List.filter_map]
    rfl
  have hlength : ((plansOf bundle component).map (meanOfPlan metrics)).length ≠ 0 := by
    rw [List.length_map]
    exact mt List.length_eq_zero_iff.mp hplans
  unfold componentScore
  rw [hfilter]
  refine bind_eq_ok.mpr ⟨_, divided_eq hlength, ?_⟩
  rw [List.map_map, List.map_map, List.length_map, meanOfComponent, componentMean, mean,
    List.length_map]
  rfl

theorem reduction_eq (hwhole : Whole bundle) (hmeasured : Measured bundle metrics) :
    reduction bundle metrics = .ok (completeReduction bundle metrics) := by
  have hplans : bundle.plans.mapM (planScore metrics) =
      .ok (bundle.plans.map (meanOfPlan metrics)) := by
    rw [mapM_eq_ok, List.map_map]
    refine List.map_congr_left fun plan hplan ↦ ?_
    refine planScore_eq (hwhole.planCases plan hplan) fun caseId hcaseId ↦ ?_
    exact (hmeasured.keys caseId).mpr
      (hwhole.planned.mem_iff.mp (List.mem_flatMap.mpr ⟨plan, hplan, hcaseId⟩))
  have hcomponents : componentOrder.mapM
      (componentScore (bundle.plans.map (meanOfPlan metrics))) =
        .ok (componentOrder.map (meanOfComponent bundle metrics)) := by
    rw [mapM_eq_ok, List.map_map]
    exact List.map_congr_left fun component hcomponent ↦
      componentScore_eq (hwhole.plans component hcomponent)
  unfold reduction
  refine bind_eq_ok.mpr ⟨_, hplans, bind_eq_ok.mpr ⟨_, hcomponents, ?_⟩⟩
  rw [completeReduction, indexOf_eq]
  rfl

/-! ### The index -/

/-- Every case is there, belongs to one plan and has its metric, and every plan is ready. -/
structure Complete (bundle : MabManifestBundle) (metrics : Dictionary String ℚ) (run : RunFacts) :
    Prop where
  whole : Whole bundle
  measured : ∀ caseId ∈ caseIds bundle,
    ∃ metric, metrics.lookup caseId = some metric ∧ 0 ≤ metric ∧ metric ≤ 1
  ready : ∀ planId ∈ planIds bundle, planId ∈ run.readyPlanManifestIds

theorem complete_of_inOrder (horder : InOrder library bundle run)
    (hmeasured : Measured bundle metrics) : Complete bundle metrics run where
  whole := whole_of_topology horder.topology
  measured := by
    intro caseId hcaseId
    obtain ⟨metric, hlookup⟩ := Option.isSome_iff_exists.mp
      (AList.lookup_isSome.mpr ((hmeasured.keys caseId).mpr hcaseId))
    exact ⟨metric, hlookup, hmeasured.bounded caseId metric hlookup⟩
  ready := fun planId hplanId ↦ (horder.ready planId).mpr hplanId

/-- The reduction is the complete one, or says why there is none. -/
theorem reduceMab65_cases (library : Library) (bundle : MabManifestBundle)
    (metrics : Dictionary String ℚ) (run : RunFacts) :
    (InOrder library bundle run ∧ Measured bundle metrics ∧
        reduceMab65 library bundle metrics run = .ok (completeReduction bundle metrics)) ∨
      (¬(InOrder library bundle run ∧ Measured bundle metrics) ∧
        ∃ reason, reduceMab65 library bundle metrics run = .ok (unavailable reason)) := by
  unfold reduceMab65
  cases hrefusal : refusal library bundle metrics run with
  | none =>
    obtain ⟨horder, hmeasured⟩ := refusal_eq_none_iff.mp hrefusal
    exact .inl ⟨horder, hmeasured, reduction_eq (whole_of_topology horder.topology) hmeasured⟩
  | some reason =>
    refine .inr ⟨fun hboth ↦ ?_, reason, rfl⟩
    rw [refusal_eq_none_iff.mpr hboth] at hrefusal
    exact nomatch hrefusal

/-- The metrics are read by their cases. -/
theorem reduceMab65_perm {others : Dictionary String ℚ}
    (hperm : metrics.entries.Perm others.entries) :
    reduceMab65 library bundle metrics run = reduceMab65 library bundle others run := by
  have hmembers : sameMembers metrics.keys (caseIds bundle) =
      sameMembers others.keys (caseIds bundle) := by
    rw [Bool.eq_iff_iff, sameMembers_eq_true, sameMembers_eq_true]
    have hkeys : ∀ caseId, caseId ∈ metrics.keys ↔ caseId ∈ others.keys :=
      fun caseId ↦ (hperm.map Sigma.fst).mem_iff
    simp only [hkeys]
  have hrefusal : refusal library bundle metrics run = refusal library bundle others run := by
    unfold refusal
    rw [hmembers, hperm.any_eq]
  have hscore : planScore metrics = planScore others := by
    ext plan
    unfold planScore
    simp only [AList.perm_lookup hperm]
  have hreduction : reduction bundle metrics = reduction bundle others := by
    unfold reduction
    rw [hscore]
  unfold reduceMab65
  rw [hrefusal, hreduction]

/-- The run has an index. -/
def HasIndex (library : Library) (bundle : MabManifestBundle) (metrics : Dictionary String ℚ)
    (run : RunFacts) (value : ℚ) : Prop :=
  ∃ reduction, reduceMab65 library bundle metrics run = .ok reduction ∧
    reduction.available = true ∧ reduction.indexValue = some value

theorem hasIndex_iff {value : ℚ} : HasIndex library bundle metrics run value ↔
    InOrder library bundle run ∧ Measured bundle metrics ∧ value = indexOf bundle metrics := by
  unfold HasIndex
  rcases reduceMab65_cases library bundle metrics run with
    ⟨horder, hmeasured, hreduce⟩ | ⟨hnot, reason, hreduce⟩
  · rw [hreduce]
    constructor
    · rintro ⟨reduction, hreduction, -, hvalue⟩
      cases hreduction
      exact ⟨horder, hmeasured, (Option.some.inj hvalue).symm⟩
    · rintro ⟨-, -, rfl⟩
      exact ⟨_, rfl, rfl, rfl⟩
  · rw [hreduce]
    constructor
    · rintro ⟨reduction, hreduction, havailable, -⟩
      cases hreduction
      exact Bool.noConfusion havailable
    · rintro ⟨horder, hmeasured, -⟩
      exact absurd ⟨horder, hmeasured⟩ hnot

/-- A metric is replaced by one that is not above one. -/
theorem measured_insert {caseId : String} {metric raised : ℚ}
    (hmeasured : Measured bundle metrics) (hlookup : metrics.lookup caseId = some metric)
    (hraised : metric ≤ raised) (hone : raised ≤ 1) :
    Measured bundle (metrics.insert caseId raised) where
  keys := by
    intro other
    have hkey : caseId ∈ metrics.keys :=
      AList.lookup_isSome.mp (Option.isSome_iff_exists.mpr ⟨metric, hlookup⟩)
    rw [← hmeasured.keys other, ← AList.mem_keys, ← AList.mem_keys, AList.mem_insert,
      AList.mem_keys]
    exact ⟨fun hmem ↦ hmem.elim (fun hsame ↦ hsame ▸ hkey) id, Or.inr⟩
  bounded := by
    intro other value hvalue
    rw [Dictionary.lookup_insert_eq_ite] at hvalue
    split at hvalue
    · cases hvalue
      exact ⟨le_trans (hmeasured.bounded caseId metric hlookup).1 hraised, hone⟩
    · exact hmeasured.bounded other value hvalue

theorem metricOf_insert {caseId : String} {metric raised : ℚ}
    (hlookup : metrics.lookup caseId = some metric) (hraised : metric ≤ raised) (other : String) :
    metricOf metrics other ≤ metricOf (metrics.insert caseId raised) other := by
  unfold metricOf
  rw [Dictionary.lookup_insert_eq_ite]
  split
  · next hsame =>
    rw [hsame, hlookup]
    exact hraised
  · exact le_refl _

/-- The reduction always returns. A complete run has the weighted mean of its capabilities, of means
of means, between zero and one hundred, and no other run has an index. The index of a run follows
each metric; neither the order of the metrics nor that of the plans and their cases matters. -/
theorem reduceMab65_sound (library : Library) (bundle : MabManifestBundle) (run : RunFacts) :
    (∀ metrics, ∃ reduction, reduceMab65 library bundle metrics run = .ok reduction) ∧
    (∀ metrics, InOrder library bundle run → Measured bundle metrics →
      reduceMab65 library bundle metrics run = .ok (completeReduction bundle metrics)) ∧
    (∀ metrics value, HasIndex library bundle metrics run value →
      reduceMab65 library bundle metrics run = .ok (completeReduction bundle metrics) ∧
        value = 100 * weightedMean (completeReduction bundle metrics).capabilities ∧
        0 ≤ value ∧ value ≤ 100) ∧
    (∀ metrics value caseId metric raised, HasIndex library bundle metrics run value →
      metrics.lookup caseId = some metric → metric ≤ raised →
        (raised ≤ 1 → ∃ higher, HasIndex library bundle (metrics.insert caseId raised) run higher) ∧
        ∀ higher, HasIndex library bundle (metrics.insert caseId raised) run higher →
          value ≤ higher) ∧
    (∀ metrics others : Dictionary String ℚ, metrics.entries.Perm others.entries →
      reduceMab65 library bundle metrics run = reduceMab65 library bundle others run) ∧
    (∀ metrics other otherRun value otherValue, SamePlans bundle other →
      HasIndex library bundle metrics run value →
        HasIndex library other metrics otherRun otherValue → value = otherValue) ∧
    ∀ metrics, ¬Complete bundle metrics run →
      ∃ reason, reduceMab65 library bundle metrics run = .ok (unavailable reason) := by
  refine ⟨fun metrics ↦ ?_, fun metrics horder hmeasured ↦ ?_, fun metrics value hindex ↦ ?_,
    fun metrics value caseId metric raised hindex hlookup hraised ↦ ⟨fun hone ↦ ?_, ?_⟩,
    fun metrics others ↦ reduceMab65_perm, ?_, fun metrics hnot ↦ ?_⟩
  · rcases reduceMab65_cases library bundle metrics run with ⟨-, -, hreduce⟩ | ⟨-, _, hreduce⟩
    · exact ⟨_, hreduce⟩
    · exact ⟨_, hreduce⟩
  · exact (reduceMab65_cases library bundle metrics run).elim (fun hcomplete ↦ hcomplete.2.2)
      fun hrefused ↦ absurd ⟨horder, hmeasured⟩ hrefused.1
  · obtain ⟨horder, hmeasured, rfl⟩ := hasIndex_iff.mp hindex
    refine ⟨?_, rfl, indexOf_bounds hmeasured.bounded⟩
    exact (reduceMab65_cases library bundle metrics run).elim (fun hcomplete ↦ hcomplete.2.2)
      fun hrefused ↦ absurd ⟨horder, hmeasured⟩ hrefused.1
  · obtain ⟨horder, hmeasured, -⟩ := hasIndex_iff.mp hindex
    exact ⟨_, hasIndex_iff.mpr ⟨horder, measured_insert hmeasured hlookup hraised hone, rfl⟩⟩
  · intro higher hhigher
    obtain ⟨-, -, rfl⟩ := hasIndex_iff.mp hindex
    obtain ⟨-, -, rfl⟩ := hasIndex_iff.mp hhigher
    exact indexOf_mono (metricOf_insert hlookup hraised)
  · intro metrics other otherRun value otherValue hsame hindex hother
    obtain ⟨-, -, rfl⟩ := hasIndex_iff.mp hindex
    obtain ⟨-, -, rfl⟩ := hasIndex_iff.mp hother
    exact indexOf_eq_of_samePlans hsame
  · rcases reduceMab65_cases library bundle metrics run with
      ⟨horder, hmeasured, -⟩ | ⟨-, hreduce⟩
    · exact absurd (complete_of_inOrder horder hmeasured) hnot
    · exact hreduce

/-! ### A complete run -/

/-- Digests that do not look at what they are taken of. -/
def sampleLibrary : Library where
  sha256 := fun _ ↦ "payload"
  canonicalSha256
    | .array (.string tag :: _) =>
      if tag = "oamb-mab65-selected-case-ids-v1" then mab65SelectedCaseDigest
      else if tag = "oamb-mab65-selected-plan-manifest-ids-v1" then mab65SelectedPlanDigest
      else "digest"
    | _ => "digest"
  validatedHash := fun _ ↦ some mab65CaseManifestHash

def sampleName (component : String) (ordinals : List ℕ) : String :=
  String.ofList (component.toList ++ ordinals.map fun ordinal ↦ Char.ofNat (97 + ordinal))

def sampleMembers (component : String) (ordinal : ℕ) : List String :=
  if component = "cr_sf" then
    [sampleName component [ordinal, 0], sampleName component [ordinal, 1]]
  else [sampleName component [ordinal]]

def samplePlan (component : String) (count ordinal : ℕ) : MabPlan where
  manifest :=
    { planManifestEntryId :=
        if component = "cr_sf" ∧ ordinal = 0 then mab65Cr32kPlanId
        else sampleName component [ordinal]
      ingestionPlanId := "digest"
      orderedMemberContextManifestEntryIds := sampleMembers component ordinal
      orderedCaseManifestEntryIds :=
        (List.range count).map fun place ↦ sampleName component [ordinal, place]
      orderedSourceUnitBytesSha256 := ["payload"]
      ingestionPayloadHash := "digest"
      otherFields := [] }
  runtimePlan :=
    { ingestionPlanId := "digest"
      orderedMemberContextManifestEntryIds := sampleMembers component ordinal
      orderedCaseManifestEntryIds :=
        (List.range count).map fun place ↦ sampleName component [ordinal, place]
      intendedSourceCount := 1
      orderedSourceUnits :=
        [⟨1, (sampleMembers component ordinal).headD "", "payload", "digest", []⟩]
      sharedContextSha256 := "payload" }
  memberLabels := ["factconsolidation_sh_6k", "factconsolidation_mh_6k"]
  component

/-- The first two cases of a plan are of its first context, the others of its last one. -/
def sampleCase (component metricId : String) (ordinal place : ℕ) : MabCase where
  entry :=
    { caseManifestEntryId := sampleName component [ordinal, place]
      contextManifestEntryId :=
        if place < 2 then (sampleMembers component ordinal).headD ""
        else (sampleMembers component ordinal).getLastD ""
      otherFields := [] }
  metricId
  component

/-- The cases of each plan of each component. -/
def sampleCounts : List (String × ℕ × ℕ) :=
  expectedPlanCaseCounts.flatMap fun (component, counts) ↦
    counts.zipIdx.map fun numbered ↦ (component, numbered)

def sampleBundle : MabManifestBundle :=
  let plans := sampleCounts.map fun (component, count, ordinal) ↦
    samplePlan component count ordinal
  let cases := sampleCounts.flatMap fun (component, count, ordinal) ↦
    (List.range count).map
      (sampleCase component ((expectedMetricByComponent.lookup component).getD "") ordinal)
  let contexts := sampleCounts.flatMap fun (component, _, ordinal) ↦
    (sampleMembers component ordinal).map fun member ↦ ⟨member, "payload", []⟩
  { caseManifest :=
      ⟨"mab65-v1", contexts, plans.map MabPlan.manifest, cases.map MabCase.entry, []⟩
    cases
    plans
    entityCatalogSha256 := "catalog"
    unicodeFingerprint := "unicode"
    selectedCaseDigest := mab65SelectedCaseDigest
    selectedPlanDigest := mab65SelectedPlanDigest }

/-- The cases of one component are right, and the others half right. -/
def sampleMetrics : Dictionary String ℚ :=
  Dictionary.ofList (sampleBundle.cases.map fun mabCase ↦
    (mabCase.entry.caseManifestEntryId, if mabCase.component = "ar" then 1 else 1 / 2))

def sampleRun : RunFacts where
  readyPlanManifestIds := planIds sampleBundle
  capsuleValid := true
  queryStateUnchanged := true
  expectedCatalogSha256 := "catalog"
  expectedUnicodeFingerprint := "unicode"
  expectedInteractionFingerprint := "interaction"
  observedInteractionFingerprint := "interaction"
  comparisonControlsClosed := true

set_option maxRecDepth 100000 in
example : (reduceMab65 sampleLibrary sampleBundle sampleMetrics sampleRun).toOption.bind
    Reduction.indexValue = some (125 / 2) := by
  decide +kernel

end Oamb.Workloads.Mab65Guarantees
