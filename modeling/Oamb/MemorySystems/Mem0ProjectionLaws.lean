import Oamb.MemorySystems.Mem0Projection

/-!
# Laws of the projection of Mem0

`parseProjectionPages_eq_ok` says which lists of pages are a projection: every page can be read on its
own, and together they are one chain, whose pages but the last have cursors that are all different,
whose points are all different, and whose count is the one that every page declares.

`projectionStateSha256_eq_iff` says what the digest of a projection stands for: its collection, its run
and the set of its points. How the points were split into pages and in which order they came makes no
difference.
-/

set_option autoImplicit false

namespace Oamb.MemorySystems.Mem0ProjectionLaws

open Foundation Foundation.Json Foundation.JsonText Foundation.StatefulExecution
open Contracts.Identities ExactJson Mem0Projection

/-! ### Pages on their own -/

/-- What a page says. -/
structure PageReading where
  count : ℕ
  points : List ProjectionPoint
  cursor : Option String

/-- Read a page without those before it. -/
def readPageAlone (expected : Expectation) (rawPage : Bytes) : Except String PageReading := do
  let page ← parseExactJsonObject rawPage pageFields
  let collection ← requireNonEmptyString (page.get "collection") "projection collection"
  require (collection = expected.collection)
    "projection collection does not match the exact profile"
  let runId ← requireNonEmptyString (page.get "run_id") "projection run_id"
  require (runId = expected.runId) "projection run_id does not match the requested scope"
  let count ← parseCount (page.get "count")
  require (count ≤ expected.maxPoints) "projection point limit exceeded"
  let rawPoints ← requirePoints (page.get "points")
  let cursor ← parseCursor (page.get "next_cursor")
  let points ← rawPoints.mapM (parseProjectionPoint expected.runId)
  pure ⟨count, points, cursor⟩

/-! ### Points after points -/

theorem mapM_cons_eq_ok {α β : Type} {read : α → Except String β} {item : α} {items : List α}
    {results : List β} :
    (item :: items).mapM read = .ok results ↔
      ∃ result others, read item = .ok result ∧ items.mapM read = .ok others ∧
        results = result :: others := by
  rw [List.mapM_cons]
  simp only [bind_eq_ok]
  constructor
  · rintro ⟨result, hresult, others, hothers, hsame⟩
    exact ⟨result, others, hresult, hothers, (Except.ok.inj hsame).symm⟩
  · rintro ⟨result, others, hresult, hothers, rfl⟩
    exact ⟨result, hresult, others, hothers, rfl⟩

theorem mapM_nil_eq_ok {α β : Type} {read : α → Except String β} {results : List β} :
    ([] : List α).mapM read = .ok results ↔ results = [] := by
  rw [List.mapM_nil]
  exact ⟨fun hsame ↦ (Except.ok.inj hsame).symm, fun hnil ↦ congrArg Except.ok hnil.symm⟩

/-- A list is read as an empty one exactly when it is empty. -/
theorem mapM_eq_nil_iff {α β : Type} {read : α → Except String β} {items : List α}
    {results : List β} (hread : items.mapM read = .ok results) : results = [] ↔ items = [] := by
  cases items with
  | nil => simp only [mapM_nil_eq_ok.mp hread]
  | cons item items =>
    obtain ⟨result, others, -, -, rfl⟩ := mapM_cons_eq_ok.mp hread
    simp only [reduceCtorEq]

/-- The identities of some points. -/
def identities (points : List ProjectionPoint) : List String :=
  points.map ProjectionPoint.nativeId

/-- Points are added when each can be read, none was there before, and they are not too many. -/
theorem addPoints_eq_ok {expectedRunId : String} {maxPoints : ℕ} {points : List ProjectionPoint}
    (hpoints : (identities points).Nodup) (hbound : points.length ≤ maxPoints)
    {values : List Json} {result : List ProjectionPoint} :
    addPoints expectedRunId maxPoints points values = .ok result ↔
      ∃ added, values.mapM (parseProjectionPoint expectedRunId) = .ok added ∧
        (identities (points ++ added)).Nodup ∧ (points ++ added).length ≤ maxPoints ∧
        result = points ++ added := by
  induction values generalizing points with
  | nil =>
    simp only [addPoints, mapM_nil_eq_ok, exists_eq_left, List.append_nil, Except.ok.injEq]
    exact ⟨fun hsame ↦ ⟨hpoints, hbound, hsame.symm⟩, fun hsame ↦ hsame.2.2.symm⟩
  | cons value values ih =>
    simp only [addPoints, bind_eq_ok, require_eq_ok, mapM_cons_eq_ok]
    constructor
    · rintro ⟨point, hpoint, -, hnew, -, hlength, hrest⟩
      have hnodup : (identities (points ++ [point])).Nodup := by
        rw [identities, List.map_append, List.map_singleton]
        exact List.nodup_append_comm.mp (List.nodup_cons.mpr ⟨hnew, hpoints⟩)
      obtain ⟨added, hadded, hids, hbounded, rfl⟩ := (ih hnodup (by simpa using hlength)).mp hrest
      rw [List.append_assoc, List.singleton_append] at hids hbounded ⊢
      exact ⟨point :: added, ⟨point, added, hpoint, hadded, rfl⟩, hids, hbounded, rfl⟩
    · rintro ⟨_, ⟨point, added, hpoint, hadded, rfl⟩, hids, hbounded, rfl⟩
      have hsplit : points ++ point :: added = points ++ [point] ++ added := by
        rw [List.append_assoc, List.singleton_append]
      rw [hsplit] at hids hbounded
      have hnodup : (identities (points ++ [point])).Nodup := by
        rw [identities, List.map_append] at hids
        exact (List.nodup_append'.mp hids).1
      have hlength : (points ++ [point]).length ≤ maxPoints := by
        rw [List.length_append] at hbounded
        omega
      refine ⟨point, hpoint, (), ?_, (), by simpa using hlength,
        (ih hnodup hlength).mpr ⟨added, hadded, hids, hbounded, hsplit⟩⟩
      rw [identities, List.map_append, List.map_singleton, List.nodup_append_comm,
        List.singleton_append, List.nodup_cons] at hnodup
      exact hnodup.1

/-! ### Pages after pages -/

/-- What is read once a page was added. -/
def after (reading : Reading) (page : PageReading) : Reading :=
  ⟨some page.count, reading.points ++ page.points, reading.seenCursors ++ page.cursor.toList,
    page.cursor⟩

/-- A page can come after what was read so far. -/
structure Follows (maxPoints : ℕ) (isLast : Bool) (reading : Reading) (page : PageReading) :
    Prop where
  count : ∀ declared ∈ reading.declaredCount, page.count = declared
  fresh : ∀ cursor ∈ page.cursor, cursor ∉ reading.seenCursors
  filled : page.cursor.isSome → page.points ≠ []
  terminal : page.cursor = none → isLast = true
  distinct : (identities (reading.points ++ page.points)).Nodup
  bounded : (reading.points ++ page.points).length ≤ maxPoints

/-- What was read so far is in order. -/
structure Sound (maxPoints : ℕ) (reading : Reading) : Prop where
  cursors : reading.seenCursors.Nodup
  distinct : (identities reading.points).Nodup
  bounded : reading.points.length ≤ maxPoints

theorem checkCursor_eq_ok {seenCursors : List String} {rawPoints : List Json} {isLast : Bool}
    {cursor : Option String} {value : Unit} :
    checkCursor seenCursors rawPoints isLast cursor = .ok value ↔
      (∀ text ∈ cursor, text ∉ seenCursors) ∧ (cursor.isSome → rawPoints ≠ []) ∧
        (cursor = none → isLast = true) := by
  cases cursor with
  | none => simp [checkCursor, require_eq_ok]
  | some text =>
    simp only [checkCursor, bind_eq_ok, require_eq_ok]
    simp

theorem readPage_eq_ok {expected : Expectation} {isLast : Bool} {reading next : Reading}
    (hsound : Sound expected.maxPoints reading) {rawPage : Bytes} :
    readPage expected isLast reading rawPage = .ok next ↔
      ∃ page, readPageAlone expected rawPage = .ok page ∧
        Follows expected.maxPoints isLast reading page ∧ next = after reading page := by
  simp only [readPage, readPageAlone, bind_eq_ok, require_eq_ok,
    addPoints_eq_ok hsound.distinct hsound.bounded, checkCursor_eq_ok]
  constructor
  · rintro ⟨page, hpage, collection, hcollection, -, hsameCollection, runId, hrunId, -, hsameRunId,
      count, hcount, -, hlimit, -, hdeclared, rawPoints, hraw, cursor, hcursor, -,
      ⟨hfresh, hfilled, hterminal⟩, _, ⟨points, hpoints, hdistinct, hbounded, rfl⟩, hnext⟩
    exact ⟨⟨count, points, cursor⟩, ⟨page, hpage, collection, hcollection, (), hsameCollection,
      runId, hrunId, (), hsameRunId, count, hcount, (), hlimit, rawPoints, hraw, cursor, hcursor,
      points, hpoints, rfl⟩, ⟨hdeclared, hfresh,
      fun hsome hnil ↦ hfilled hsome ((mapM_eq_nil_iff hpoints).mp hnil), hterminal, hdistinct,
      hbounded⟩, (Except.ok.inj hnext).symm⟩
  · rintro ⟨_, ⟨page, hpage, collection, hcollection, -, hsameCollection, runId, hrunId, -,
      hsameRunId, count, hcount, -, hlimit, rawPoints, hraw, cursor, hcursor, points, hpoints,
      hsame⟩, hfollows, rfl⟩
    obtain rfl := Except.ok.inj hsame
    exact ⟨page, hpage, collection, hcollection, (), hsameCollection, runId, hrunId, (), hsameRunId,
      count, hcount, (), hlimit, (), hfollows.count, rawPoints, hraw, cursor, hcursor, (),
      ⟨hfollows.fresh, fun hsome hnil ↦ hfollows.filled hsome ((mapM_eq_nil_iff hpoints).mpr hnil),
      hfollows.terminal⟩, _, ⟨points, hpoints, hfollows.distinct, hfollows.bounded, rfl⟩, rfl⟩

theorem Follows.sound {maxPoints : ℕ} {isLast : Bool} {reading : Reading} {page : PageReading}
    (hfollows : Follows maxPoints isLast reading page) (hsound : Sound maxPoints reading) :
    Sound maxPoints (after reading page) := by
  refine ⟨?_, hfollows.distinct, hfollows.bounded⟩
  have hfresh := hfollows.fresh
  rw [after]
  cases hcursor : page.cursor with
  | none =>
    rw [Option.toList_none, List.append_nil]
    exact hsound.cursors
  | some text =>
    rw [hcursor] at hfresh
    rw [Option.toList_some, List.nodup_append_comm]
    exact List.nodup_cons.mpr ⟨hfresh text rfl, hsound.cursors⟩

/-- All points of some pages. -/
def allPoints (pages : List PageReading) : List ProjectionPoint := pages.flatMap PageReading.points

/-- All cursors of some pages. -/
def allCursors (pages : List PageReading) : List String := pages.filterMap PageReading.cursor

theorem allPoints_cons (page : PageReading) (rest : List PageReading) :
    allPoints (page :: rest) = page.points ++ allPoints rest :=
  List.flatMap_cons

theorem allCursors_cons (page : PageReading) (rest : List PageReading) :
    allCursors (page :: rest) = page.cursor.toList ++ allCursors rest := by
  rw [allCursors, List.filterMap_cons]
  cases page.cursor <;> rfl

/-- Some pages can come one after another after what was read so far. -/
structure Continues (maxPoints : ℕ) (reading : Reading) (pages : List PageReading) : Prop where
  count : ∀ page ∈ pages, ∀ declared ∈ reading.declaredCount, page.count = declared
  same : ∀ page ∈ pages, ∀ other ∈ pages, page.count = other.count
  cursors : (reading.seenCursors ++ allCursors pages).Nodup
  filled : ∀ page ∈ pages, page.cursor.isSome → page.points ≠ []
  linked : ∀ page ∈ pages.dropLast, page.cursor.isSome
  distinct : (identities (reading.points ++ allPoints pages)).Nodup
  bounded : (reading.points ++ allPoints pages).length ≤ maxPoints

/-- What is read once some pages were added. -/
def afterAll (reading : Reading) (pages : List PageReading) : Reading := pages.foldl after reading

theorem continues_nil {maxPoints : ℕ} {reading : Reading} (hsound : Sound maxPoints reading) :
    Continues maxPoints reading [] where
  count := by simp
  same := by simp
  cursors := by simpa [allCursors] using hsound.cursors
  filled := by simp
  linked := by simp
  distinct := by simpa [allPoints] using hsound.distinct
  bounded := by simpa [allPoints] using hsound.bounded

theorem continues_cons {maxPoints : ℕ} {reading : Reading} {page : PageReading}
    {rest : List PageReading} :
    Continues maxPoints reading (page :: rest) ↔
      Follows maxPoints (decide (rest = [])) reading page ∧
        Continues maxPoints (after reading page) rest := by
  have hcursors : (after reading page).seenCursors ++ allCursors rest =
      reading.seenCursors ++ allCursors (page :: rest) := by
    rw [allCursors_cons, after, List.append_assoc]
  have hpoints : (after reading page).points ++ allPoints rest =
      reading.points ++ allPoints (page :: rest) := by
    rw [allPoints_cons, after, List.append_assoc]
  constructor
  · intro hcontinues
    have hdistinct := hcontinues.distinct
    have hbounded := hcontinues.bounded
    have hnodup := hcontinues.cursors
    rw [allPoints_cons, ← List.append_assoc, identities, List.map_append] at hdistinct
    rw [allPoints_cons, ← List.append_assoc, List.length_append] at hbounded
    rw [allCursors_cons, ← List.append_assoc] at hnodup
    refine ⟨⟨hcontinues.count page List.mem_cons_self, fun text htext ↦ ?_,
      hcontinues.filled page List.mem_cons_self, fun hnone ↦ ?_, (List.nodup_append'.mp hdistinct).1,
      by omega⟩, ⟨fun other hother declared hdeclared ↦ ?_, fun other hother third hthird ↦ ?_, ?_,
      fun other hother ↦ hcontinues.filled other (List.mem_cons_of_mem page hother),
      fun other hother ↦ ?_, ?_, ?_⟩⟩
    · have hdisjoint := (List.nodup_append'.mp (List.nodup_append'.mp hnodup).1).2.2
      exact fun hseen ↦ hdisjoint hseen (Option.mem_toList.mpr htext)
    · refine decide_eq_true (by_contra fun hrest ↦ ?_)
      have hsome := hcontinues.linked page (by
        rw [List.dropLast_cons_of_ne_nil hrest]
        exact List.mem_cons_self)
      rw [hnone] at hsome
      cases hsome
    · obtain rfl : page.count = declared := Option.some_inj.mp hdeclared
      exact hcontinues.same other (List.mem_cons_of_mem page hother) page List.mem_cons_self
    · exact hcontinues.same other (List.mem_cons_of_mem page hother) third
        (List.mem_cons_of_mem page hthird)
    · rw [hcursors]
      exact hcontinues.cursors
    · refine hcontinues.linked other ?_
      rw [List.dropLast_cons_of_ne_nil (List.ne_nil_of_mem ((List.dropLast_sublist rest).subset hother))]
      exact List.mem_cons_of_mem page hother
    · rw [hpoints]
      exact hcontinues.distinct
    · rw [hpoints]
      exact hcontinues.bounded
  · rintro ⟨hfollows, hcontinues⟩
    have hcount : ∀ other ∈ rest, other.count = page.count := fun other hother ↦
      hcontinues.count other hother page.count rfl
    refine ⟨List.forall_mem_cons.mpr ⟨hfollows.count, fun other hother declared hdeclared ↦ ?_⟩,
      ?_, hcursors ▸ hcontinues.cursors,
      List.forall_mem_cons.mpr ⟨hfollows.filled, hcontinues.filled⟩, fun other hother ↦ ?_,
      hpoints ▸ hcontinues.distinct, hpoints ▸ hcontinues.bounded⟩
    · rw [hcount other hother, hfollows.count declared hdeclared]
    · refine List.forall_mem_cons.mpr ⟨List.forall_mem_cons.mpr ⟨rfl, fun other hother ↦
        (hcount other hother).symm⟩, fun other hother ↦ List.forall_mem_cons.mpr
        ⟨hcount other hother, fun third hthird ↦ (hcount other hother).trans
          (hcount third hthird).symm⟩⟩
    · by_cases hrest : rest = []
      · rw [hrest] at hother
        cases hother
      · rw [List.dropLast_cons_of_ne_nil hrest] at hother
        rcases List.mem_cons.mp hother with rfl | hlater
        · exact Option.isSome_iff_ne_none.mpr fun hnone ↦
            hrest (of_decide_eq_true (hfollows.terminal hnone))
        · exact hcontinues.linked other hlater

/-- The pages can be read when each can be on its own and they come one after another. -/
theorem readPages_eq_ok {expected : Expectation} {reading final : Reading}
    (hsound : Sound expected.maxPoints reading) {rawPages : List Bytes} :
    readPages expected reading rawPages = .ok final ↔
      ∃ pages, rawPages.mapM (readPageAlone expected) = .ok pages ∧
        Continues expected.maxPoints reading pages ∧ final = afterAll reading pages := by
  induction rawPages generalizing reading with
  | nil =>
    simp only [readPages, mapM_nil_eq_ok, exists_eq_left, Except.ok.injEq]
    exact ⟨fun hsame ↦ ⟨continues_nil hsound, hsame.symm⟩, fun hsame ↦ hsame.2.symm⟩
  | cons rawPage rest ih =>
    simp only [readPages, bind_eq_ok, readPage_eq_ok hsound, mapM_cons_eq_ok]
    constructor
    · rintro ⟨_, ⟨page, hpage, hfollows, rfl⟩, hrest⟩
      obtain ⟨pages, hpages, hcontinues, rfl⟩ := (ih (hfollows.sound hsound)).mp hrest
      refine ⟨page :: pages, ⟨page, pages, hpage, hpages, rfl⟩, continues_cons.mpr ⟨?_,
        hcontinues⟩, rfl⟩
      simpa only [mapM_eq_nil_iff hpages] using hfollows
    · rintro ⟨_, ⟨page, pages, hpage, hpages, rfl⟩, hcontinues, rfl⟩
      obtain ⟨hfollows, hcontinues⟩ := continues_cons.mp hcontinues
      refine ⟨_, ⟨page, hpage, ?_, rfl⟩, (ih (hfollows.sound hsound)).mpr ⟨pages, hpages, hcontinues,
        rfl⟩⟩
      simpa only [mapM_eq_nil_iff hpages] using hfollows

/-! ### The pages of a projection -/

/-- Some pages are one chain: each but the last has a cursor, no two have the same, a page with a
cursor has points, no two points have the same identity, and every page declares their number. -/
structure Chain (maxPoints : ℕ) (pages : List PageReading) : Prop where
  ne_nil : pages ≠ []
  linked : ∀ page ∈ pages.dropLast, page.cursor.isSome
  ended : ∀ page ∈ pages.getLast?, page.cursor = none
  cursors : (allCursors pages).Nodup
  filled : ∀ page ∈ pages, page.cursor.isSome → page.points ≠ []
  distinct : (identities (allPoints pages)).Nodup
  counted : ∀ page ∈ pages, page.count = (allPoints pages).length
  bounded : (allPoints pages).length ≤ maxPoints

theorem points_afterAll (reading : Reading) (pages : List PageReading) :
    (afterAll reading pages).points = reading.points ++ allPoints pages := by
  induction pages generalizing reading with
  | nil => rw [afterAll, List.foldl_nil, allPoints, List.flatMap_nil, List.append_nil]
  | cons page pages ih =>
    rw [afterAll, List.foldl_cons, ← afterAll, ih, allPoints_cons, after, List.append_assoc]

theorem afterAll_of_getLast? (reading : Reading) {pages : List PageReading} {last : PageReading}
    (hlast : pages.getLast? = some last) :
    (afterAll reading pages).finalCursor = last.cursor ∧
      (afterAll reading pages).declaredCount = some last.count := by
  obtain ⟨others, rfl⟩ : ∃ others, pages = others ++ [last] :=
    ⟨pages.dropLast, (List.dropLast_append_getLast? last hlast).symm⟩
  rw [afterAll, List.foldl_append, List.foldl_cons, List.foldl_nil]
  exact ⟨rfl, rfl⟩

theorem sound_initial (maxPoints : ℕ) : Sound maxPoints .initial :=
  ⟨List.nodup_nil, List.nodup_nil, Nat.zero_le maxPoints⟩

theorem requireRunId_eq_ok {runId : String} {value : Unit} :
    requireRunId runId = .ok value ↔ isRunId runId = true := by
  simp only [requireRunId, bind_eq_ok, require_eq_ok, exists_const]
  refine ⟨fun hboth ↦ hboth.2, fun hrun ↦ ⟨?_, hrun⟩⟩
  rintro rfl
  exact Bool.noConfusion hrun

/-- A reading of all pages ends as a projection when they are one chain. -/
theorem chain_iff {maxPoints : ℕ} {pages : List PageReading} (hpages : pages ≠ []) :
    Chain maxPoints pages ↔ Continues maxPoints .initial pages ∧
      (afterAll .initial pages).finalCursor = none ∧
      (afterAll .initial pages).declaredCount = some (allPoints pages).length := by
  obtain ⟨last, hlast⟩ : ∃ last, pages.getLast? = some last :=
    ⟨pages.getLast hpages, List.getLast?_eq_some_getLast hpages⟩
  obtain ⟨hcursor, hcount⟩ := afterAll_of_getLast? .initial hlast
  have hmem : last ∈ pages := List.mem_of_getLast? hlast
  rw [hcursor, hcount, Option.some_inj]
  constructor
  · intro hchain
    exact ⟨⟨fun _ _ _ hnone ↦ (nomatch hnone), fun page hpage other hother ↦
      (hchain.counted page hpage).trans (hchain.counted other hother).symm, hchain.cursors,
      hchain.filled, hchain.linked, hchain.distinct, hchain.bounded⟩, hchain.ended last hlast,
      hchain.counted last hmem⟩
  · rintro ⟨hcontinues, hended, hcounted⟩
    refine ⟨hpages, hcontinues.linked, fun page hpage ↦ ?_, hcontinues.cursors, hcontinues.filled,
      hcontinues.distinct, fun page hpage ↦ (hcontinues.same page hpage last hmem).trans hcounted,
      hcontinues.bounded⟩
    rw [Option.mem_def, hlast, Option.some_inj] at hpage
    exact hpage ▸ hended

/-- Some pages are a projection exactly when each can be read and together they are one chain. -/
theorem parseProjectionPages_eq_ok {rawPages : List Bytes} {collection runId : String}
    {maxPages maxPoints : ℕ} {projection : Projection} :
    parseProjectionPages rawPages collection runId maxPages maxPoints = .ok projection ↔
      (collection ≠ "" ∧ isRunId runId = true ∧ 1 ≤ maxPoints ∧ rawPages.length ≤ maxPages) ∧
        ∃ pages, rawPages.mapM (readPageAlone ⟨collection, runId, maxPoints⟩) = .ok pages ∧
          Chain maxPoints pages ∧
          projection = ⟨collection, runId, (allPoints pages).length, allPoints pages,
            rawPages.length⟩ := by
  have hread (final : Reading) := @readPages_eq_ok ⟨collection, runId, maxPoints⟩ .initial final
    (sound_initial maxPoints) rawPages
  simp only [parseProjectionPages, bind_eq_ok, require_eq_ok, requireRunId_eq_ok, exists_const,
    hread]
  constructor
  · rintro ⟨hcollection, hrun, hmaxPages, hmaxPoints, hne, hlength, _, ⟨pages, hpages, hcontinues,
      rfl⟩, hterminal, hrest⟩
    have hnil : pages ≠ [] := fun hnil ↦ hne ((mapM_eq_nil_iff hpages).mp hnil)
    cases hdeclared : (afterAll .initial pages).declaredCount with
    | none => rw [hdeclared] at hrest; cases hrest
    | some declared =>
      rw [hdeclared] at hrest
      simp only [bind_eq_ok, require_eq_ok, exists_const] at hrest
      obtain ⟨hcounted, hprojection⟩ := hrest
      have hpoints : (afterAll .initial pages).points = allPoints pages :=
        points_afterAll .initial pages
      rw [hpoints] at hcounted hprojection
      rw [← hcounted] at hdeclared hprojection
      exact ⟨⟨hcollection, hrun, hmaxPoints, hlength⟩, pages, hpages,
        (chain_iff hnil).mpr ⟨hcontinues, hterminal, hdeclared⟩, (Except.ok.inj hprojection).symm⟩
  · rintro ⟨⟨hcollection, hrun, hmaxPoints, hlength⟩, pages, hpages, hchain, rfl⟩
    obtain ⟨hcontinues, hterminal, hdeclared⟩ := (chain_iff hchain.ne_nil).mp hchain
    have hne : rawPages ≠ [] := fun hnil ↦ hchain.ne_nil ((mapM_eq_nil_iff hpages).mpr hnil)
    have hpoints : (afterAll .initial pages).points = allPoints pages :=
      points_afterAll .initial pages
    refine ⟨hcollection, hrun, (List.length_pos_of_ne_nil hne).trans_le hlength, hmaxPoints, hne,
      hlength, _, ⟨pages, hpages, hcontinues, rfl⟩, hterminal, ?_⟩
    rw [hdeclared]
    simp only [hpoints, bind_eq_ok, require_eq_ok, exists_const, true_and]
    rfl

/-! ### The order of the points -/

theorem ordinalBelow_trans {first second third : Option ℤ} (hfirst : ordinalBelow first second = true)
    (hsecond : ordinalBelow second third = true) : ordinalBelow first third = true := by
  cases first with
  | none => cases hfirst
  | some first =>
    cases second with
    | none => cases hsecond
    | some second =>
      cases third with
      | none => rfl
      | some third =>
        exact decide_eq_true ((of_decide_eq_true hfirst).trans (of_decide_eq_true hsecond))

theorem ordinalBelow_irrefl (ordinal : Option ℤ) : ordinalBelow ordinal ordinal = false := by
  cases ordinal with
  | none => rfl
  | some ordinal => exact decide_eq_false (lt_irrefl ordinal)

theorem ordinalBelow_trichotomy (first second : Option ℤ) :
    ordinalBelow first second = true ∨ first = second ∨ ordinalBelow second first = true := by
  cases first with
  | none =>
    cases second with
    | none => exact Or.inr (Or.inl rfl)
    | some second => exact Or.inr (Or.inr rfl)
  | some first =>
    cases second with
    | none => exact Or.inl rfl
    | some second =>
      rcases lt_trichotomy first second with hlt | rfl | hgt
      · exact Or.inl (decide_eq_true hlt)
      · exact Or.inr (Or.inl rfl)
      · exact Or.inr (Or.inr (decide_eq_true hgt))

theorem notAfter_iff {first second : ProjectionPoint} :
    notAfter first second = true ↔
      ordinalBelow (sourceOrdinal first) (sourceOrdinal second) = true ∨
        sourceOrdinal first = sourceOrdinal second ∧ first.nativeId ≤ second.nativeId := by
  rw [notAfter, Bool.or_eq_true, decide_eq_true_eq]

theorem notAfter_trans (first second third : ProjectionPoint)
    (hfirst : notAfter first second = true) (hsecond : notAfter second third = true) :
    notAfter first third = true := by
  rw [notAfter_iff] at *
  rcases hfirst with hlt | ⟨heq, hle⟩
  · rcases hsecond with hlt' | ⟨heq', -⟩
    · exact Or.inl (ordinalBelow_trans hlt hlt')
    · exact Or.inl (heq' ▸ hlt)
  · rcases hsecond with hlt' | ⟨heq', hle'⟩
    · exact Or.inl (heq ▸ hlt')
    · exact Or.inr ⟨heq.trans heq', String.le_trans hle hle'⟩

theorem notAfter_total (first second : ProjectionPoint) :
    (notAfter first second || notAfter second first) = true := by
  rw [Bool.or_eq_true, notAfter_iff, notAfter_iff]
  rcases ordinalBelow_trichotomy (sourceOrdinal first) (sourceOrdinal second) with hlt | heq | hgt
  · exact Or.inl (Or.inl hlt)
  · rcases String.le_total first.nativeId second.nativeId with hle | hle
    · exact Or.inl (Or.inr ⟨heq, hle⟩)
    · exact Or.inr (Or.inr ⟨heq.symm, hle⟩)
  · exact Or.inr (Or.inl hgt)

/-- Of two points with different identities only one is not after the other. -/
theorem nativeId_eq_of_notAfter {first second : ProjectionPoint}
    (hfirst : notAfter first second = true) (hsecond : notAfter second first = true) :
    first.nativeId = second.nativeId := by
  rw [notAfter_iff] at hfirst hsecond
  have hnot (ordinal : Option ℤ) : ¬ ordinalBelow ordinal ordinal = true :=
    Bool.eq_false_iff.mp (ordinalBelow_irrefl ordinal)
  rcases hfirst with hlt | ⟨heq, hle⟩
  · rcases hsecond with hlt' | ⟨heq', -⟩
    · exact absurd (ordinalBelow_trans hlt hlt') (hnot _)
    · exact absurd (heq' ▸ hlt) (hnot _)
  · rcases hsecond with hlt' | ⟨-, hle'⟩
    · exact absurd (heq ▸ hlt') (hnot _)
    · exact String.le_antisymm hle hle'

theorem perm_orderedProjectionPoints (projection : Projection) :
    (orderedProjectionPoints projection).Perm projection.points :=
  List.mergeSort_perm projection.points notAfter

/-- The order of the points is that of their set. -/
theorem orderedProjectionPoints_eq {projection other : Projection}
    (hnodup : (identities projection.points).Nodup)
    (hsame : projection.points.Perm other.points) :
    orderedProjectionPoints projection = orderedProjectionPoints other := by
  have hperm : (orderedProjectionPoints projection).Perm (orderedProjectionPoints other) :=
    (perm_orderedProjectionPoints projection).trans
      (hsame.trans (perm_orderedProjectionPoints other).symm)
  refine hperm.eq_of_pairwise ?_
    (List.pairwise_mergeSort notAfter_trans notAfter_total projection.points)
    (List.pairwise_mergeSort notAfter_trans notAfter_total other.points)
  intro first second hfirst hsecond hle hge
  have hmem := (perm_orderedProjectionPoints projection).mem_iff.mp hfirst
  have hmem' := (perm_orderedProjectionPoints projection).mem_iff.mp (hperm.mem_iff.mpr hsecond)
  exact List.inj_on_of_nodup_map hnodup hmem hmem' (nativeId_eq_of_notAfter hle hge)

/-! ### The digest of a projection -/

theorem metadataTuple_injective : Function.Injective metadataTuple := by
  rintro ⟨occurrence, plan, source, ordinal⟩ ⟨occurrence', plan', source', ordinal'⟩ hsame
  simp only [metadataTuple, Json.array.injEq, List.cons.injEq, Json.string.injEq,
    Json.integer.injEq, and_true] at hsame
  obtain ⟨rfl, rfl, rfl, rfl⟩ := hsame
  rfl

theorem orNull_injective {α : Type} {document : α → Json} (hinjective : Function.Injective document)
    (hnull : ∀ value, document value ≠ .null) : Function.Injective (orNull document) := by
  intro first second hsame
  cases first with
  | none =>
    cases second with
    | none => rfl
    | some value => exact absurd hsame.symm (hnull value)
  | some value =>
    cases second with
    | none => exact absurd hsame (hnull value)
    | some other => exact congrArg some (hinjective hsame)

theorem projectionPointTuple_injective : Function.Injective projectionPointTuple := by
  rintro ⟨_, _, _, _, _, _, _, metadata, attributedTo⟩ ⟨_, _, _, _, _, _, _, metadata', attributedTo'⟩
    hsame
  simp only [projectionPointTuple, Json.array.injEq, List.cons.injEq, Json.string.injEq,
    and_true] at hsame
  obtain ⟨rfl, rfl, rfl, rfl, rfl, rfl, rfl, hmetadata, hattributed⟩ := hsame
  obtain rfl : metadata = metadata' :=
    orNull_injective metadataTuple_injective (fun _ ↦ nofun) hmetadata
  obtain rfl : attributedTo = attributedTo' :=
    orNull_injective (fun _ _ ↦ Json.string.inj) (fun _ ↦ nofun) hattributed
  rfl

theorem isFlat_projectionPointTuple (point : ProjectionPoint) :
    isFlat (projectionPointTuple point) = true := by
  obtain ⟨_, _, _, _, _, _, _, metadata, attributedTo⟩ := point
  cases metadata <;> cases attributedTo <;> rfl

theorem isFlat_projectionState (projection : Projection) :
    isFlat (projectionState projection) = true := by
  have hpoints : areFlat ((orderedProjectionPoints projection).map projectionPointTuple) = true := by
    rw [areFlat_eq_all, List.all_map, List.all_eq_true]
    exact fun point _ ↦ isFlat_projectionPointTuple point
  simp only [projectionState, isFlat, areFlat, hpoints, Bool.and_self]

/-- The digest of a projection stands for its collection, its run and the set of its points. -/
theorem projectionStateSha256_eq_iff {sha256 : Bytes → String}
    (hsha256 : Function.Injective sha256) {projection other : Projection}
    (hnodup : (identities projection.points).Nodup)
    (hother : (identities other.points).Nodup) :
    projectionStateSha256 sha256 projection = projectionStateSha256 sha256 other ↔
      projection.collection = other.collection ∧ projection.runId = other.runId ∧
        ∀ point, point ∈ projection.points ↔ point ∈ other.points := by
  constructor
  · intro hsame
    have hstate := canonicalJsonBytes_inj (isFlat_projectionState projection)
      (isFlat_projectionState other) (hsha256 hsame)
    simp only [projectionState, Json.array.injEq, List.cons.injEq, Json.string.injEq,
      and_true, true_and] at hstate
    obtain ⟨hcollection, hrun, hpoints⟩ := hstate
    have hordered := List.map_injective_iff.mpr projectionPointTuple_injective hpoints
    refine ⟨hcollection, hrun, fun point ↦ ?_⟩
    rw [← (perm_orderedProjectionPoints projection).mem_iff, hordered,
      (perm_orderedProjectionPoints other).mem_iff]
  · rintro ⟨hcollection, hrun, hpoints⟩
    have hperm : projection.points.Perm other.points :=
      (List.perm_ext_iff_of_nodup (List.Nodup.of_map _ hnodup) (List.Nodup.of_map _ hother)).mpr
        hpoints
    rw [projectionStateSha256, projectionStateSha256, projectionState, projectionState,
      hcollection, hrun, orderedProjectionPoints_eq hnodup hperm]

/-! ### Points of sorted documents -/

theorem requireNonEmptyString_sorted (value : Json) (fieldName : String) :
    requireNonEmptyString (sorted value) fieldName = requireNonEmptyString value fieldName := by
  rw [requireNonEmptyString, requireNonEmptyString, asNonEmptyText_sorted]

theorem mem_names_sorted (value : Json) (name : String) :
    name ∈ (sorted value).names ↔ name ∈ value.names :=
  (names_sorted_perm value).mem_iff

theorem parseAttributedTo_sorted (value : Json) :
    parseAttributedTo (sorted value) = parseAttributedTo value := by
  rw [parseAttributedTo, parseAttributedTo, isNull_sorted, requireNonEmptyString_sorted]

/-- A payload says the same in whatever order its members stand. -/
theorem parsePayload_sorted {payload : Json} (hexact : payload.exact = true)
    (nativeId expectedRunId : String) :
    parsePayload nativeId (sorted payload) expectedRunId =
      parsePayload nativeId payload expectedRunId := by
  simp only [parsePayload, requirePayload, parseOptionalSourceMetadata, parseSourceMetadata,
    isObject_sorted, mem_names_sorted, get_sorted hexact, requireNonEmptyString_sorted,
    asInteger_sorted, parseAttributedTo_sorted]

theorem isWhole_of_asNonEmptyText {value : Json} {text : String}
    (htext : value.asNonEmptyText = some text) : isWhole value = true := by
  cases value with
  | string => rfl
  | null | bool | integer | real | array | object => cases htext

theorem isWhole_of_asInteger {value : Json} {number : ℤ} (hnumber : value.asInteger = some number) :
    isWhole value = true := by
  cases value with
  | integer => rfl
  | null | bool | string | real | array | object => cases hnumber

theorem isWhole_of_attributedTo {value : Json} {attributedTo : Option String}
    (hread : parseAttributedTo value = .ok attributedTo) : isWhole value = true := by
  cases value with
  | null => rfl
  | bool | integer | string | real | array | object =>
    obtain ⟨text, htext, -⟩ := bind_eq_ok.mp hread
    exact isWhole_of_asNonEmptyText (requireNonEmptyString_eq_ok.mp htext)

theorem isWhole_of_metadata {payload : Json} {metadata : Option SourceMetadata}
    (hread : parseOptionalSourceMetadata payload = .ok metadata) {name : String}
    (hname : name ∈ sourceMetadataFields) (hpresent : name ∈ payload.names) :
    isWhole (payload.get name) = true := by
  rw [parseOptionalSourceMetadata, if_neg fun hnone ↦ hnone name hname hpresent] at hread
  simp only [bind_eq_ok, parseSourceMetadata] at hread
  obtain ⟨-, -, source, hsource, -⟩ := hread
  cases hordinal : (payload.get "oamb_source_ordinal").asInteger with
  | none => rw [hordinal] at hsource; cases hsource
  | some ordinal =>
    rw [hordinal] at hsource
    simp only [bind_eq_ok, requireNonEmptyString_eq_ok] at hsource
    obtain ⟨occurrence, hoccurrence, plan, hplan, unit, hunit, -⟩ := hsource
    simp only [sourceMetadataFields, List.mem_cons, List.not_mem_nil, or_false] at hname
    rcases hname with rfl | rfl | rfl | rfl
    · exact isWhole_of_asNonEmptyText hoccurrence
    · exact isWhole_of_asNonEmptyText hplan
    · exact isWhole_of_asNonEmptyText hunit
    · exact isWhole_of_asInteger hordinal

/-- What a payload that can be read has. -/
theorem of_parsePayload {payload : Json} {nativeId expectedRunId : String} {point : ProjectionPoint}
    (hread : parsePayload nativeId payload expectedRunId = .ok point) :
    point.nativeId = nativeId ∧ payload.isObject = true ∧
      (payload.get "run_id").asNonEmptyText = some expectedRunId ∧
      ∀ name ∈ payload.names, isWhole (payload.get name) = true := by
  simp only [parsePayload, requirePayload, bind_eq_ok, require_eq_ok,
    requireNonEmptyString_eq_ok, exists_const] at hread
  obtain ⟨⟨hobject, -, hallowed⟩, runId, hrun, rfl, metadata, hmetadata, -, data, hdata, lemma_,
    hlemma, hash, hhash, created, hcreated, updated, hupdated, attributed, hattributed, hpoint⟩ :=
    hread
  refine ⟨(congrArg ProjectionPoint.nativeId (Except.ok.inj hpoint)).symm, hobject, hrun,
    fun name hname ↦ ?_⟩
  have hmem := hallowed name hname
  simp only [allowedPayloadFields, optionalPayloadFields, List.mem_append, List.mem_cons,
    requiredPayloadFields, List.not_mem_nil, or_false] at hmem
  rcases hmem with (rfl | rfl | rfl | rfl | rfl | rfl) | rfl | hsource
  · exact isWhole_of_asNonEmptyText hdata
  · exact isWhole_of_asNonEmptyText hlemma
  · exact isWhole_of_asNonEmptyText hhash
  · exact isWhole_of_asNonEmptyText hcreated
  · exact isWhole_of_asNonEmptyText hupdated
  · exact isWhole_of_asNonEmptyText hrun
  · exact isWhole_of_attributedTo hattributed
  · exact isWhole_of_metadata hmetadata hsource hname

/-- The numbers of an exact payload that can be read are integers. -/
theorem isWhole_of_parsePayload {payload : Json} (hexact : payload.exact = true)
    {nativeId expectedRunId : String} {point : ProjectionPoint}
    (hread : parsePayload nativeId payload expectedRunId = .ok point) :
    isWhole payload = true := by
  obtain ⟨-, hobject, -, hwhole⟩ := of_parsePayload hread
  cases payload with
  | null | bool | integer | real | string | array => cases hobject
  | object members =>
    rw [Json.exact, Bool.and_eq_true, decide_eq_true_eq] at hexact
    rw [isWhole, haveWhole_eq_all, List.all_eq_true]
    intro member hmember
    have hvalue := hwhole member.1 (List.mem_map_of_mem hmember)
    rwa [Json.get, (lookup_eq_some_iff hexact.1).mpr hmember] at hvalue

end Oamb.MemorySystems.Mem0ProjectionLaws
