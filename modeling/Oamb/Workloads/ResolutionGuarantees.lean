import Mathlib.Tactic.Positivity
import Oamb.Foundation.EditDistance
import Oamb.Foundation.StatefulExecution
import Oamb.Workloads.MovieResolution

/-!
# What movies are resolved to

The table of two rows computes the edit distance (`levenshtein_eq`). A title is resolved to the
movie that is closest to it, and of several to the one with the least title and identity, whatever the
order of the catalog. The recall counts each entry of the gold list once at most, and a movie as
often as it is listed (`counts_listed_twice`).
-/

set_option autoImplicit false

namespace Oamb.Workloads.ResolutionGuarantees

open Foundation Foundation.EditDistance Foundation.StatefulExecution MovieResolution

/-! ### The table -/

section Table

variable {α : Type} [DecidableEq α]

/-- The cells of a row behind some characters of the right text. -/
def cells (left done : List α) : List α → List ℕ
  | [] => []
  | character :: right =>
    editDistance left (done ++ [character]) :: cells left (done ++ [character]) right

/-- A row has the distances of all beginnings of the right text. -/
def row (left right : List α) : List ℕ := editDistance left [] :: cells left [] right

/-- The row above gives the row of one more character. -/
theorem fillRow_eq (left done right : List α) (character : α) :
    fillRow character (editDistance (left ++ [character]) done)
        (editDistance left done :: cells left done right) right =
      cells (left ++ [character]) done right := by
  induction right generalizing done with
  | nil => rfl
  | cons other right ih =>
    have hcell : min (min (editDistance (left ++ [character]) done + 1)
        (editDistance left (done ++ [other]) + 1))
        (editDistance left done + if character = other then 0 else 1) =
          editDistance (left ++ [character]) (done ++ [other]) := by
      rw [editDistance_append, replacement, min_comm (editDistance left (done ++ [other]) + 1)]
    rw [cells, fillRow, cells]
    simp only [hcell]
    rw [ih]

theorem nextRow_eq (left right : List α) (character : α) :
    nextRow right (row left right) (character, left.length + 1) =
      row (left ++ [character]) right := by
  have hfirst : left.length + 1 = editDistance (left ++ [character]) [] := by
    rw [editDistance_nil_right, List.length_append, List.length_singleton]
  unfold nextRow row
  rw [hfirst, fillRow_eq]

/-- The first row. -/
theorem range_eq_row (right : List α) : List.range (right.length + 1) = row [] right := by
  have hcells : ∀ done : List α, cells [] done right =
      (List.range right.length).map (· + (done.length + 1)) := by
    induction right with
    | nil => exact fun done ↦ rfl
    | cons character right ih =>
      intro done
      rw [cells, ih, editDistance_nil_left, List.length_append, List.length_singleton,
        List.length_cons, List.range_succ_eq_map, List.map_cons, List.map_map, Nat.zero_add]
      refine congrArg _ (List.map_congr_left fun number _ ↦ ?_)
      rw [Function.comp_apply, Nat.succ_eq_add_one]
      omega
  rw [row, hcells, editDistance_nil_left, List.length_nil, List.range_succ_eq_map]

theorem foldl_nextRow (left right : List α) :
    (left.zipIdx 1).foldl (nextRow right) (List.range (right.length + 1)) = row left right := by
  induction left using List.reverseRecOn with
  | nil => exact range_eq_row right
  | append_singleton left character ih =>
    rw [List.zipIdx_append, List.foldl_append, ih, Nat.add_comm]
    exact nextRow_eq left right character

theorem getLastD_cells (left done right : List α) :
    (editDistance left done :: cells left done right).getLastD 0 =
      editDistance left (done ++ right) := by
  induction right generalizing done with
  | nil => rw [List.append_nil]; rfl
  | cons character right ih =>
    rw [cells, List.getLastD_cons, List.getLastD_cons, ← List.getLastD_cons (a := 0), ih,
      List.append_assoc, List.singleton_append]

theorem lastCell_eq (left right : List α) : lastCell left right = editDistance left right := by
  rw [lastCell, foldl_nextRow, row, getLastD_cells, List.nil_append]

/-- The table of two rows computes the edit distance. -/
theorem levenshtein_eq (left right : List α) :
    levenshtein left right = editDistance left right := by
  unfold levenshtein
  split
  · rw [lastCell_eq, editDistance_comm]
  · exact lastCell_eq left right

end Table

/-! ### The order of a catalog -/

theorem perm_orderedCatalog (movies : List CatalogMovie) : (orderedCatalog movies).Perm movies :=
  List.perm_insertionSort _ movies

theorem pairwise_orderedCatalog (movies : List CatalogMovie) :
    (orderedCatalog movies).Pairwise fun first second ↦ sortKey first ≤ sortKey second := by
  have htotal : Std.Total fun first second : CatalogMovie ↦ sortKey first ≤ sortKey second :=
    ⟨fun first second ↦ le_total (sortKey first) (sortKey second)⟩
  have htrans : IsTrans CatalogMovie fun first second ↦ sortKey first ≤ sortKey second :=
    ⟨fun _ _ _ hfirst hsecond ↦ hfirst.trans hsecond⟩
  exact List.pairwise_insertionSort _ movies

variable {library : Library} {catalog other : MovieCatalog} {movies : List CatalogMovie}
  {rawTitle : List Char} {resolved : ResolvedMovie}

/-- No two movies of a catalog have one key. -/
theorem eq_of_sortKey {first second : CatalogMovie} (hfirst : first ∈ catalog.movies)
    (hsecond : second ∈ catalog.movies) (hle : sortKey first ≤ sortKey second)
    (hge : sortKey second ≤ sortKey first) : first = second := by
  have hkey : sortKey first = sortKey second := le_antisymm hle hge
  have hid : first.entityId = second.entityId := congrArg (fun key ↦ (ofLex key).2) hkey
  exact List.inj_on_of_nodup_map catalog.distinct hfirst hsecond hid

/-- The order that a catalog is read in does not matter. -/
theorem orderedCatalog_eq_of_perm (hperm : other.movies.Perm catalog.movies) :
    orderedCatalog other.movies = orderedCatalog catalog.movies := by
  refine List.Perm.eq_of_pairwise (fun first second hfirst hsecond ↦ ?_)
    (pairwise_orderedCatalog _) (pairwise_orderedCatalog _)
    (((perm_orderedCatalog _).trans hperm).trans (perm_orderedCatalog _).symm)
  exact eq_of_sortKey (hperm.subset ((perm_orderedCatalog _).subset hfirst))
    ((perm_orderedCatalog _).subset hsecond)

/-! ### The closest movie -/

/-- A movie is closest to a title, and the least of those that are. -/
structure Closest (movies : List CatalogMovie) (title : List Char) (movie : CatalogMovie) :
    Prop where
  member : movie ∈ movies
  minimal : ∀ other ∈ movies,
    editDistance title movie.normalizedTitle ≤ editDistance title other.normalizedTitle
  least : ∀ other ∈ movies,
    editDistance title other.normalizedTitle = editDistance title movie.normalizedTitle →
      sortKey movie ≤ sortKey other

/-- A title is resolved to the closest movie, with all that are as close. -/
structure Resolves (library : Library) (movies : List CatalogMovie) (rawTitle : List Char)
    (resolved : ResolvedMovie) : Prop where
  raw : resolved.rawTitle = rawTitle
  cleaned : resolved.cleanedTitle = cleanPredictionTitle rawTitle
  normalized :
    resolved.normalizedTitle = library.normalizeMovieTitle (cleanPredictionTitle rawTitle)
  closest : ∃ movie, Closest movies resolved.normalizedTitle movie ∧
    resolved.entityId = movie.entityId ∧ resolved.catalogTitle = movie.cleanedTitle ∧
    resolved.catalogNormalizedTitle = movie.normalizedTitle ∧
    resolved.distance = editDistance resolved.normalizedTitle movie.normalizedTitle
  tied : ∀ entityId, entityId ∈ resolved.tiedEntityIds ↔ ∃ movie ∈ movies,
    movie.entityId = entityId ∧
      editDistance resolved.normalizedTitle movie.normalizedTitle = resolved.distance

/-- What is closest in one order of the movies is so in any other. -/
theorem Resolves.perm {others : List CatalogMovie} (hperm : movies.Perm others)
    (hresolves : Resolves library movies rawTitle resolved) :
    Resolves library others rawTitle resolved where
  raw := hresolves.raw
  cleaned := hresolves.cleaned
  normalized := hresolves.normalized
  closest := by
    obtain ⟨movie, hclosest, hfields⟩ := hresolves.closest
    exact ⟨movie, ⟨hperm.subset hclosest.member,
      fun other hother ↦ hclosest.minimal other (hperm.mem_iff.mpr hother),
      fun other hother ↦ hclosest.least other (hperm.mem_iff.mpr hother)⟩, hfields⟩
  tied entityId := by
    rw [hresolves.tied entityId]
    simp only [hperm.mem_iff]

/-- The first of the movies at the least distance is the closest one. -/
theorem closest_of_filter {title : List Char} {minimum : ℕ} {chosen : CatalogMovie}
    {tied : List CatalogMovie}
    (hsorted : movies.Pairwise fun first second ↦ sortKey first ≤ sortKey second)
    (hminimum : ∀ movie ∈ movies, minimum ≤ levenshtein title movie.normalizedTitle)
    (htied : (movies.filter fun movie ↦ levenshtein title movie.normalizedTitle = minimum) =
      chosen :: tied) :
    Closest movies title chosen ∧ minimum = editDistance title chosen.normalizedTitle := by
  have hchosen := List.mem_filter.mp (htied ▸ List.mem_cons_self)
  have hdistance : editDistance title chosen.normalizedTitle = minimum := by
    rw [← levenshtein_eq]
    exact of_decide_eq_true hchosen.2
  refine ⟨⟨hchosen.1, fun other hother ↦ ?_, fun other hother hsame ↦ ?_⟩, hdistance.symm⟩
  · rw [hdistance, ← levenshtein_eq]
    exact hminimum other hother
  · have hpairwise := hsorted.filter fun movie ↦
      decide (levenshtein title movie.normalizedTitle = minimum)
    have hmem : other ∈ chosen :: tied := by
      rw [← htied]
      refine List.mem_filter.mpr ⟨hother, decide_eq_true ?_⟩
      rw [levenshtein_eq, hsame, hdistance]
    rw [htied] at hpairwise
    rcases List.mem_cons.mp hmem with rfl | hmem
    · exact le_refl _
    · exact List.rel_of_pairwise_cons hpairwise hmem

/-- The movies at the least distance are there. -/
theorem filter_minimum_ne_nil {title : List Char} {minimum : ℕ}
    (hminimum : (movies.map fun movie ↦ levenshtein title movie.normalizedTitle).min? =
      some minimum) :
    (movies.filter fun movie ↦ levenshtein title movie.normalizedTitle = minimum) ≠ [] := by
  obtain ⟨movie, hmovie, hdistance⟩ := List.mem_map.mp (List.min?_eq_some_iff.mp hminimum).1
  exact List.ne_nil_of_mem (List.mem_filter.mpr ⟨hmovie, decide_eq_true hdistance⟩)

theorem resolveTitle_resolves
    (hsorted : movies.Pairwise fun first second ↦ sortKey first ≤ sortKey second)
    (hresolve : resolveTitle library movies rawTitle = .ok resolved) :
    Resolves library movies rawTitle resolved := by
  unfold resolveTitle at hresolve
  dsimp only at hresolve
  generalize htitle : library.normalizeMovieTitle (cleanPredictionTitle rawTitle) = title
    at hresolve
  split at hresolve
  · cases hresolve
  · split at hresolve
    · cases hresolve
    · next minimum hminimum =>
      have hleast := (List.min?_eq_some_iff.mp hminimum).2
      split at hresolve
      · cases hresolve
      · next chosen tied htied =>
        have hclosest := closest_of_filter hsorted
          (fun movie hmovie ↦ hleast _ (List.mem_map_of_mem hmovie)) htied
        cases hresolve
        refine ⟨rfl, rfl, htitle.symm, ⟨chosen, hclosest.1, rfl, rfl, rfl, hclosest.2⟩,
          fun entityId ↦ ?_⟩
        simp only [List.mem_map, List.mem_filter, decide_eq_true_eq, levenshtein_eq]
        exact exists_congr fun movie ↦
          ⟨fun hmovie ↦ ⟨hmovie.1.1, hmovie.2, hmovie.1.2⟩,
            fun hmovie ↦ ⟨⟨hmovie.1, hmovie.2.2⟩, hmovie.2.1⟩⟩

/-- A title is resolved among some movies unless nothing of it is left. -/
theorem exists_resolveTitle (hmovies : movies ≠ []) :
    (∃ resolved, resolveTitle library movies rawTitle = .ok resolved) ↔
      library.normalizeMovieTitle (cleanPredictionTitle rawTitle) ≠ [] := by
  unfold resolveTitle
  dsimp only
  generalize library.normalizeMovieTitle (cleanPredictionTitle rawTitle) = title
  by_cases htitle : title = []
  · rw [if_pos htitle]
    exact iff_of_false (by simp) (not_not_intro htitle)
  · rw [if_neg htitle]
    refine iff_of_true ?_ htitle
    split
    · next hminimum =>
      exact absurd (List.map_eq_nil_iff.mp (List.min?_eq_none_iff.mp hminimum)) hmovies
    · next minimum hminimum =>
      split
      · next htied => exact absurd htied (filter_minimum_ne_nil hminimum)
      · exact ⟨_, rfl⟩

/-! ### Ranked titles -/

theorem orderedCatalog_ne_nil (catalog : MovieCatalog) : orderedCatalog catalog.movies ≠ [] :=
  fun hnil ↦ catalog.nonempty (hnil ▸ perm_orderedCatalog catalog.movies).nil_eq.symm

theorem exists_resolveRankedMovies {rawTitles : List (List Char)} :
    (∃ ranked, resolveRankedMovies library rawTitles catalog = .ok ranked) ↔
      ∀ rawTitle ∈ rawTitles,
        library.normalizeMovieTitle (cleanPredictionTitle rawTitle) ≠ [] := by
  constructor
  · rintro ⟨ranked, hranked⟩ rawTitle hraw
    obtain ⟨resolved, -, hresolved⟩ := exists_of_mapM hranked hraw
    exact (exists_resolveTitle (orderedCatalog_ne_nil catalog)).mp ⟨resolved, hresolved⟩
  · exact fun htitles ↦ exists_mapM fun rawTitle hraw ↦
      (exists_resolveTitle (orderedCatalog_ne_nil catalog)).mpr (htitles rawTitle hraw)

theorem resolveRankedMovies_resolves {rawTitles : List (List Char)} {ranked : List ResolvedMovie}
    (hranked : resolveRankedMovies library rawTitles catalog = .ok ranked) :
    List.Forall₂ (Resolves library catalog.movies) rawTitles ranked := by
  refine (forall₂_of_mapM hranked).imp fun rawTitle resolved hresolved ↦ ?_
  exact (resolveTitle_resolves (pairwise_orderedCatalog _) hresolved).perm
    (perm_orderedCatalog catalog.movies)

theorem resolveRankedMovies_perm (hperm : other.movies.Perm catalog.movies)
    (rawTitles : List (List Char)) :
    resolveRankedMovies library rawTitles other =
      resolveRankedMovies library rawTitles catalog := by
  unfold resolveRankedMovies
  rw [orderedCatalog_eq_of_perm hperm]

/-- A catalog of the same entities in another order. -/
theorem fromEntityMap_perm {entityMap otherMap : List (String × ℤ)}
    (hperm : otherMap.Perm entityMap) (hcatalog : fromEntityMap library entityMap = .ok catalog) :
    ∃ other, fromEntityMap library otherMap = .ok other ∧
      other.movies.Perm catalog.movies := by
  unfold fromEntityMap at hcatalog ⊢
  split at hcatalog
  · next hunique =>
    have hother : entityIdsAreUnique otherMap :=
      ⟨fun hnil ↦ hunique.1 (hnil ▸ hperm).nil_eq.symm,
        fun entry hentry ↦ hunique.2.1 entry (hperm.subset hentry),
        (hperm.map Prod.snd).nodup_iff.mpr hunique.2.2⟩
    split at hcatalog
    · cases hcatalog
    · next htitles =>
      rw [dif_pos hother, if_neg (by rwa [(hperm.map (movieOf library)).any_eq])]
      cases hcatalog
      exact ⟨_, rfl, hperm.map (movieOf library)⟩
  · cases hcatalog

/-! ### The recall -/

variable {gold : List ℕ} {result : RecallAtFiveResult} {entityId : ℕ}

/-- A gold entity is found when its title is one of the first five that were resolved. -/
def Found (catalog : MovieCatalog) (ranked : List ResolvedMovie) (entityId : ℕ) : Prop :=
  ∃ movie ∈ catalog.movies, movie.entityId = entityId ∧
    movie.normalizedTitle ∈ (ranked.take 5).map ResolvedMovie.catalogNormalizedTitle

instance (catalog : MovieCatalog) (ranked : List ResolvedMovie) (entityId : ℕ) :
    Decidable (Found catalog ranked entityId) :=
  inferInstanceAs (Decidable (∃ movie ∈ catalog.movies, _))

/-- The recall is the part of the gold entities that are found. -/
structure Recalls (catalog : MovieCatalog) (ranked : List ResolvedMovie) (gold : List ℕ)
    (result : RecallAtFiveResult) : Prop where
  numerator : result.numerator = gold.countP fun entityId ↦ Found catalog ranked entityId
  denominator : result.denominator = gold.length
  value : result.value = (result.numerator : ℚ) / result.denominator
  nonneg : 0 ≤ result.value
  le_one : result.value ≤ 1
  once : gold.Nodup → result.numerator = (gold.toFinset.filter (Found catalog ranked)).card

/-- There is one movie of an entity at most. -/
theorem find_eq_some {movie : CatalogMovie} :
    (catalog.movies.reverse.find? fun other ↦ other.entityId = entityId) = some movie ↔
      movie ∈ catalog.movies ∧ movie.entityId = entityId := by
  constructor
  · exact fun hfind ↦ ⟨List.mem_reverse.mp (List.mem_of_find?_eq_some hfind),
      by simpa using List.find?_some hfind⟩
  · rintro ⟨hmovie, hid⟩
    have hsome : (catalog.movies.reverse.find? fun other ↦ other.entityId = entityId).isSome :=
      List.find?_isSome.mpr ⟨movie, List.mem_reverse.mpr hmovie, decide_eq_true hid⟩
    obtain ⟨found, hfound⟩ := Option.isSome_iff_exists.mp hsome
    have hfoundId : found.entityId = entityId := by simpa using List.find?_some hfound
    have hsame : found.entityId = movie.entityId := hfoundId.trans hid.symm
    rw [hfound, List.inj_on_of_nodup_map catalog.distinct
      (List.mem_reverse.mp (List.mem_of_find?_eq_some hfound)) hmovie hsame]

theorem goldTitle_eq_ok {title : List Char} :
    goldTitle catalog entityId = .ok title ↔
      ∃ movie ∈ catalog.movies, movie.entityId = entityId ∧ movie.normalizedTitle = title := by
  unfold goldTitle
  split
  · next movie hfind =>
    have hmovie := find_eq_some.mp hfind
    constructor
    · exact fun hok ↦ ⟨movie, hmovie.1, hmovie.2, Except.ok.inj hok⟩
    · rintro ⟨other, hother, hid, rfl⟩
      rw [List.inj_on_of_nodup_map catalog.distinct hother hmovie.1 (hid.trans hmovie.2.symm)]
  · next hfind =>
    refine iff_of_false (by simp) ?_
    rintro ⟨movie, hmovie, hid, -⟩
    rw [find_eq_some.mpr ⟨hmovie, hid⟩] at hfind
    cases hfind

theorem goldTitle_perm (hperm : other.movies.Perm catalog.movies) (entityId : ℕ) :
    goldTitle other entityId = goldTitle catalog entityId := by
  have hfind : (other.movies.reverse.find? fun movie ↦ movie.entityId = entityId) =
      catalog.movies.reverse.find? fun movie ↦ movie.entityId = entityId := by
    ext movie
    rw [find_eq_some, find_eq_some, hperm.mem_iff]
  unfold goldTitle
  rw [hfind]

theorem scoreRecallAt5_perm (hperm : other.movies.Perm catalog.movies)
    (ranked : List ResolvedMovie) (gold : List ℕ) :
    scoreRecallAt5 ranked gold other = scoreRecallAt5 ranked gold catalog := by
  unfold scoreRecallAt5
  rw [funext (goldTitle_perm hperm)]

theorem exists_scoreRecallAt5 {ranked : List ResolvedMovie} :
    (∃ result, scoreRecallAt5 ranked gold catalog = .ok result) ↔
      gold ≠ [] ∧ ∀ entityId ∈ gold, ∃ movie ∈ catalog.movies, movie.entityId = entityId := by
  unfold scoreRecallAt5
  by_cases hgold : gold = []
  · rw [if_pos hgold]
    exact iff_of_false (by simp) fun hboth ↦ hboth.1 hgold
  · rw [if_neg hgold]
    constructor
    · rintro ⟨result, hresult⟩
      obtain ⟨titles, htitles, -⟩ := bind_eq_ok.mp hresult
      refine ⟨hgold, fun entityId hentity ↦ ?_⟩
      obtain ⟨title, -, htitle⟩ := exists_of_mapM htitles hentity
      obtain ⟨movie, hmovie, hid, -⟩ := goldTitle_eq_ok.mp htitle
      exact ⟨movie, hmovie, hid⟩
    · rintro ⟨-, hmovies⟩
      obtain ⟨titles, htitles⟩ := exists_mapM fun entityId hentity ↦ by
        obtain ⟨movie, hmovie, hid⟩ := hmovies entityId hentity
        exact ⟨movie.normalizedTitle, goldTitle_eq_ok.mpr ⟨movie, hmovie, hid, rfl⟩⟩
      exact ⟨_, bind_eq_ok.mpr ⟨titles, htitles, rfl⟩⟩

theorem countP_of_forall₂ {α β : Type} {R : α → β → Prop} {items : List α} {others : List β}
    {holds : α → Bool} {holds' : β → Bool} (hrelated : List.Forall₂ R items others)
    (hsame : ∀ item other, R item other → holds item = holds' other) :
    items.countP holds = others.countP holds' := by
  induction hrelated with
  | nil => rfl
  | cons hitem _ ih => rw [List.countP_cons, List.countP_cons, ih, hsame _ _ hitem]

theorem found_iff {ranked : List ResolvedMovie} {title : List Char}
    (htitle : goldTitle catalog entityId = .ok title) :
    Found catalog ranked entityId ↔
      title ∈ (ranked.take 5).map ResolvedMovie.catalogNormalizedTitle := by
  obtain ⟨movie, hmovie, hid, hname⟩ := goldTitle_eq_ok.mp htitle
  rw [← hname]
  constructor
  · rintro ⟨other, hother, hsame, hpredicted⟩
    rwa [List.inj_on_of_nodup_map catalog.distinct hmovie hother (hid.trans hsame.symm)]
  · exact fun hpredicted ↦ ⟨movie, hmovie, hid, hpredicted⟩

theorem scoreRecallAt5_recalls {ranked : List ResolvedMovie}
    (hscore : scoreRecallAt5 ranked gold catalog = .ok result) :
    Recalls catalog ranked gold result := by
  unfold scoreRecallAt5 at hscore
  split at hscore
  · cases hscore
  · obtain ⟨titles, htitles, hscore⟩ := bind_eq_ok.mp hscore
    have hrelated := forall₂_of_mapM htitles
    have hcount : (gold.countP fun entityId ↦ Found catalog ranked entityId) =
        titles.countP fun title ↦
          title ∈ (ranked.take 5).map ResolvedMovie.catalogNormalizedTitle :=
      countP_of_forall₂ hrelated fun entityId title htitle ↦ by simp only [found_iff htitle]
    have hlength := hrelated.length_eq
    have hle : (titles.countP fun title ↦
        title ∈ (ranked.take 5).map ResolvedMovie.catalogNormalizedTitle) ≤ titles.length :=
      List.countP_le_length
    cases hscore
    refine ⟨hcount.symm, hlength.symm, rfl, by positivity, ?_, fun hnodup ↦ ?_⟩
    · exact div_le_one_of_le₀ (Nat.cast_le.mpr hle) (Nat.cast_nonneg _)
    · have hfilter : gold.toFinset.filter (Found catalog ranked) =
          (gold.filter fun entityId ↦ Found catalog ranked entityId).toFinset := by
        ext entityId
        simp
      change titles.countP _ = _
      rw [← hcount, List.countP_eq_length_filter, hfilter,
        List.toFinset_card_of_nodup (hnodup.filter _)]

/-! ### What is resolved, and how it is scored -/

/-- The table computes the edit distance, every title is resolved to the closest movie whatever the
order of the catalog, and the recall is the part of the gold entities that are found. -/
theorem movieResolution_sound (library : Library) (catalog : MovieCatalog) :
    (∀ left right : List Char, levenshtein left right = editDistance left right) ∧
      (∀ rawTitles : List (List Char),
        ((∃ ranked, resolveRankedMovies library rawTitles catalog = .ok ranked) ↔
          ∀ rawTitle ∈ rawTitles,
            library.normalizeMovieTitle (cleanPredictionTitle rawTitle) ≠ []) ∧
        ∀ ranked, resolveRankedMovies library rawTitles catalog = .ok ranked →
          List.Forall₂ (Resolves library catalog.movies) rawTitles ranked) ∧
      (∀ other : MovieCatalog, other.movies.Perm catalog.movies →
        (∀ rawTitles, resolveRankedMovies library rawTitles other =
          resolveRankedMovies library rawTitles catalog) ∧
        ∀ ranked gold, scoreRecallAt5 ranked gold other = scoreRecallAt5 ranked gold catalog) ∧
      (∀ entityMap otherMap : List (String × ℤ), otherMap.Perm entityMap →
        fromEntityMap library entityMap = .ok catalog →
          ∃ other, fromEntityMap library otherMap = .ok other ∧
            other.movies.Perm catalog.movies) ∧
      ∀ (ranked : List ResolvedMovie) (gold : List ℕ),
        ((∃ result, scoreRecallAt5 ranked gold catalog = .ok result) ↔
          gold ≠ [] ∧ ∀ entityId ∈ gold, ∃ movie ∈ catalog.movies, movie.entityId = entityId) ∧
        ∀ result, scoreRecallAt5 ranked gold catalog = .ok result →
          Recalls catalog ranked gold result :=
  ⟨levenshtein_eq,
    fun _ ↦ ⟨exists_resolveRankedMovies, fun _ ↦ resolveRankedMovies_resolves⟩,
    fun _ hperm ↦ ⟨resolveRankedMovies_perm hperm, scoreRecallAt5_perm hperm⟩,
    fun _ _ ↦ fromEntityMap_perm,
    fun _ _ ↦ ⟨exists_scoreRecallAt5, fun _ ↦ scoreRecallAt5_recalls⟩⟩

/-! ### A gold entity that is listed twice -/

/-- Titles as they stand, and the text behind the last slash. -/
def sampleLibrary : Library where
  normalizeMovieTitle := List.map Char.toLower
  lastSegment uri := (uri.toList.reverse.takeWhile (· ≠ '/')).reverse

def sampleCatalog : MovieCatalog where
  movies := [movieOf sampleLibrary ("http://dbpedia.org/resource/Heat_(1995_film)", 7),
    movieOf sampleLibrary ("http://dbpedia.org/resource/Seven_(1995_film)", 8)]
  nonempty := List.cons_ne_nil _ _
  distinct := by decide

def sampleRanked : List ResolvedMovie :=
  [{ rawTitle := "Heat".toList
     cleanedTitle := "Heat".toList
     normalizedTitle := "heat".toList
     entityId := 7
     catalogTitle := "Heat".toList
     catalogNormalizedTitle := "heat".toList
     distance := 0
     tiedEntityIds := [7] }]

theorem resolve_sample :
    resolveRankedMovies sampleLibrary ["Heat".toList] sampleCatalog = .ok sampleRanked := by
  rfl

/-- A movie is counted in as often as it is listed. -/
theorem counts_listed_twice :
    ¬ ∀ (library : Library) (catalog : MovieCatalog) (rawTitles : List (List Char))
      (ranked : List ResolvedMovie) (gold : List ℕ) (result : RecallAtFiveResult),
      resolveRankedMovies library rawTitles catalog = .ok ranked →
      scoreRecallAt5 ranked gold catalog = .ok result →
        result.numerator ≤ gold.toFinset.card := by
  intro hcounts
  obtain ⟨result, hresult⟩ : ∃ result,
      scoreRecallAt5 sampleRanked [7, 7] sampleCatalog = .ok result :=
    exists_scoreRecallAt5.mpr ⟨by decide, by decide +kernel⟩
  have hcount := hcounts _ _ _ _ _ _ resolve_sample hresult
  rw [(scoreRecallAt5_recalls hresult).numerator] at hcount
  exact absurd hcount (by decide +kernel)

end Oamb.Workloads.ResolutionGuarantees
