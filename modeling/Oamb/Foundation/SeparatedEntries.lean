import Mathlib.Data.List.Infix

/-!
# Entries that are found in a text

The entries of a list each have a key and a text, with separators in between. `findEntries` finds
them as a search for a pattern with a shortest text does: the text of an entry goes up to the next
separator with a key behind it, or to the end. The entries that were written are found
(`findEntries_write`), and what is found without gaps was written (`eq_of_findEntries`).
-/

set_option autoImplicit false

namespace Oamb.Foundation.SeparatedEntries

/-- How the entries of a list are written: with a key in front, and with a separator of a mark and
some more between them. Neither has a mark in it, and all keys start with the same symbol. -/
structure Grammar (κ α : Type) where
  readKey : List α → Option (κ × List α)
  writeKey : κ → List α
  start : α
  mark : α
  tail : List α
  readKey_write : ∀ key rest, readKey (writeKey key ++ rest) = some (key, rest)
  eq_of_readKey : ∀ text key rest, readKey text = some (key, rest) → text = writeKey key ++ rest
  head_writeKey : ∀ key, (writeKey key).head? = some start
  mark_writeKey : ∀ key, mark ∉ writeKey key
  mark_tail : mark ∉ tail
  start_tail : start ∉ tail

/-- A found entry, with the gap in front of it. -/
structure Found (κ α : Type) where
  gap : List α
  key : κ
  text : List α
  deriving DecidableEq

variable {κ α : Type} [DecidableEq α] (grammar : Grammar κ α)

namespace Grammar

def separator : List α := grammar.mark :: grammar.tail

/-- A separator stands here, with a key behind it. -/
def atSeparator (text : List α) : Bool :=
  decide (grammar.separator <+: text) &&
    (grammar.readKey (text.drop grammar.separator.length)).isSome

/-- The shortest text that goes up to a separator or to the end. -/
def readText : List α → Option (List α × List α)
  | [] => none
  | symbol :: rest =>
    if rest = [] ∨ grammar.atSeparator rest = true then some ([symbol], rest)
    else (readText rest).map fun read ↦ (symbol :: read.1, read.2)

def readEntry (text : List α) : Option ((κ × List α) × List α) :=
  (grammar.readKey text).bind fun key ↦
    (grammar.readText key.2).map fun read ↦ ((key.1, read.1), read.2)

/-- All entries that are found, and the gap behind the last one. Each step takes a symbol or more,
so as much fuel as the text is long is enough. -/
def findEntries : ℕ → List α → List α → List (Found κ α) × List α
  | 0, gap, text => ([], gap ++ text)
  | _ + 1, gap, [] => ([], gap)
  | fuel + 1, gap, symbol :: text =>
    match grammar.readEntry (symbol :: text) with
    | some ((key, value), rest) =>
      let found := findEntries fuel [] rest
      (⟨gap, key, value⟩ :: found.1, found.2)
    | none => findEntries fuel (gap ++ [symbol]) text

def writeEntry (entry : κ × List α) : List α := grammar.writeKey entry.1 ++ entry.2

def writeEntries (entries : List (κ × List α)) : List α :=
  grammar.separator.intercalate (entries.map grammar.writeEntry)

/-- A text that is not empty and has no separator behind its first symbol. -/
def Free (text : List α) : Prop :=
  text ≠ [] ∧ ∀ before rest, before ≠ [] → before ++ rest = text → grammar.atSeparator rest = false

end Grammar

variable {grammar} {text rest : List α} {key : κ}

/-! ### Separators and keys -/

theorem atSeparator_iff :
    grammar.atSeparator text = true ↔
      ∃ key rest, text = grammar.separator ++ (grammar.writeKey key ++ rest) := by
  unfold Grammar.atSeparator
  rw [Bool.and_eq_true, decide_eq_true_eq, Option.isSome_iff_exists]
  constructor
  · rintro ⟨⟨behind, rfl⟩, ⟨key, rest⟩, hkey⟩
    rw [List.drop_left] at hkey
    exact ⟨key, rest, by rw [← grammar.eq_of_readKey _ _ _ hkey]⟩
  · rintro ⟨key, rest, rfl⟩
    refine ⟨List.prefix_append _ _, (key, rest), ?_⟩
    rw [List.drop_left, grammar.readKey_write]

/-- A separator stays one, whatever follows its key. -/
theorem atSeparator_append (hat : grammar.atSeparator text = true) (rest : List α) :
    grammar.atSeparator (text ++ rest) = true := by
  obtain ⟨key, behind, rfl⟩ := atSeparator_iff.mp hat
  exact atSeparator_iff.mpr ⟨key, behind ++ rest, by simp only [List.append_assoc]⟩

/-- A separator with its key ends before the next mark. -/
theorem atSeparator_of_append {symbol : α}
    (hat : grammar.atSeparator (symbol :: text ++ grammar.mark :: rest) = true) :
    grammar.atSeparator (symbol :: text) = true := by
  obtain ⟨key, behind, hsame⟩ := atSeparator_iff.mp hat
  rw [Grammar.separator, List.cons_append, List.cons_append, List.cons.injEq] at hsame
  obtain ⟨rfl, hsame⟩ := hsame
  rw [← List.append_assoc] at hsame
  have hmark : grammar.mark ∉ grammar.tail ++ grammar.writeKey key := by
    rw [List.mem_append, not_or]
    exact ⟨grammar.mark_tail, grammar.mark_writeKey key⟩
  rcases List.append_eq_append_iff.mp hsame with ⟨middle, hmiddle, hrest⟩ | ⟨middle, hmiddle, -⟩
  · cases middle with
    | nil =>
      refine atSeparator_iff.mpr ⟨key, [], ?_⟩
      rw [List.append_nil] at hmiddle
      rw [Grammar.separator, List.append_nil, List.cons_append, hmiddle]
    | cons symbol middle =>
      rw [List.cons_append, List.cons.injEq] at hrest
      refine absurd ?_ hmark
      rw [hmiddle, hrest.1]
      exact List.mem_append_right _ List.mem_cons_self
  · refine atSeparator_iff.mpr ⟨key, middle, ?_⟩
    rw [Grammar.separator, hmiddle, List.cons_append, List.append_assoc]

omit [DecidableEq α] in
theorem readKey_eq_none {symbol : α} (hsymbol : symbol ≠ grammar.start) (rest : List α) :
    grammar.readKey (symbol :: rest) = none := by
  cases hread : grammar.readKey (symbol :: rest) with
  | none => rfl
  | some read =>
    have hhead := congrArg List.head? (grammar.eq_of_readKey _ _ _ hread)
    rw [List.head?_append, grammar.head_writeKey, Option.some_or, List.head?_cons,
      Option.some_inj] at hhead
    exact absurd hhead hsymbol

omit [DecidableEq α] in
/-- No entry starts in a separator. -/
theorem ne_start_of_mem {symbol : α} (hmem : symbol ∈ grammar.separator) (key : κ) :
    symbol ≠ grammar.start := by
  rintro rfl
  rcases List.mem_cons.mp hmem with hmark | htail
  · refine grammar.mark_writeKey key ?_
    rw [← hmark]
    exact List.mem_of_mem_head? (grammar.head_writeKey key)
  · exact grammar.start_tail htail

/-! ### Texts of entries -/

theorem readText_cons_of_end {symbol : α}
    (hend : rest = [] ∨ grammar.atSeparator rest = true) :
    grammar.readText (symbol :: rest) = some ([symbol], rest) := by
  rw [Grammar.readText, if_pos hend]

theorem free_tail {symbol other : α} (hfree : grammar.Free (symbol :: other :: text)) :
    grammar.Free (other :: text) := by
  refine ⟨List.cons_ne_nil _ _, fun before rest hbefore hsame ↦ ?_⟩
  refine hfree.2 (symbol :: before) rest (List.cons_ne_nil _ _) ?_
  rw [List.cons_append, hsame]

/-- A text that is free of separators is read up to the next one. -/
theorem readText_append (hfree : grammar.Free text)
    (hrest : rest = [] ∨ grammar.atSeparator rest = true) :
    grammar.readText (text ++ rest) = some (text, rest) := by
  induction text with
  | nil => exact absurd rfl hfree.1
  | cons symbol text ih =>
    cases text with
    | nil => exact readText_cons_of_end hrest
    | cons other text =>
      have hother : grammar.atSeparator (other :: text) = false :=
        hfree.2 [symbol] _ (List.cons_ne_nil _ _) rfl
      have hgoes : ¬(other :: text ++ rest = [] ∨
          grammar.atSeparator (other :: text ++ rest) = true) := by
        rintro (hnil | hat)
        · exact List.cons_ne_nil _ _ hnil
        · rcases hrest with rfl | hrest
          · rw [List.append_nil, hother] at hat
            exact Bool.false_ne_true hat
          · obtain ⟨key, behind, rfl⟩ := atSeparator_iff.mp hrest
            rw [Grammar.separator, List.cons_append] at hat
            rw [atSeparator_of_append hat] at hother
            exact Bool.false_ne_true hother.symm
      rw [List.cons_append, Grammar.readText, if_neg hgoes, ih (free_tail hfree), Option.map_some]

/-- What is read of a text is free of separators and ends where it may. -/
theorem eq_of_readText {whole : List α} (hread : grammar.readText whole = some (text, rest)) :
    whole = text ++ rest ∧ grammar.Free text ∧ (rest = [] ∨ grammar.atSeparator rest = true) := by
  induction whole generalizing text with
  | nil => cases hread
  | cons symbol whole ih =>
    rw [Grammar.readText] at hread
    by_cases hend : whole = [] ∨ grammar.atSeparator whole = true
    · rw [if_pos hend, Option.some_inj] at hread
      cases hread
      refine ⟨rfl, ⟨List.cons_ne_nil _ _, fun before behind hbefore hsame ↦ ?_⟩, hend⟩
      obtain ⟨first, before, rfl⟩ := List.exists_cons_of_ne_nil hbefore
      rw [List.cons_append, List.cons.injEq, List.append_eq_nil_iff] at hsame
      rw [hsame.2.2]
      exact Bool.eq_false_iff.mpr fun hat ↦ by
        obtain ⟨key, behind, hnil⟩ := atSeparator_iff.mp hat
        cases hnil
    · rw [if_neg hend] at hread
      obtain ⟨⟨read, behind⟩, hwhole, hsame⟩ := Option.map_eq_some_iff.mp hread
      cases hsame
      obtain ⟨rfl, hfree, hrest⟩ := ih hwhole
      refine ⟨rfl, ⟨List.cons_ne_nil _ _, fun before last hbefore hsame ↦ ?_⟩, hrest⟩
      obtain ⟨first, before, rfl⟩ := List.exists_cons_of_ne_nil hbefore
      rw [List.cons_append, List.cons.injEq] at hsame
      cases before with
      | nil =>
        -- The rest of the text is no separator, since the text goes on there.
        obtain rfl : last = read := hsame.2
        exact Bool.eq_false_iff.mpr fun hat ↦ hend (Or.inr (atSeparator_append hat _))
      | cons second before => exact hfree.2 _ _ (List.cons_ne_nil _ _) hsame.2

/-! ### Entries -/

theorem readEntry_write {entry : κ × List α} (hfree : grammar.Free entry.2)
    (hrest : rest = [] ∨ grammar.atSeparator rest = true) :
    grammar.readEntry (grammar.writeEntry entry ++ rest) = some (entry, rest) := by
  rw [Grammar.readEntry, Grammar.writeEntry, List.append_assoc, grammar.readKey_write,
    Option.bind_some, readText_append hfree hrest, Option.map_some]

theorem eq_of_readEntry {entry : κ × List α} (hread : grammar.readEntry text = some (entry, rest)) :
    text = grammar.writeEntry entry ++ rest ∧ grammar.Free entry.2 ∧
      (rest = [] ∨ grammar.atSeparator rest = true) := by
  obtain ⟨⟨key, behind⟩, hkey, hread⟩ := Option.bind_eq_some_iff.mp hread
  obtain ⟨⟨value, last⟩, hvalue, hsame⟩ := Option.map_eq_some_iff.mp hread
  cases hsame
  obtain ⟨rfl, hfree, hrest⟩ := eq_of_readText hvalue
  refine ⟨?_, hfree, hrest⟩
  rw [grammar.eq_of_readKey _ _ _ hkey, Grammar.writeEntry, List.append_assoc]

/-- No entry is found as long as none starts. -/
theorem findEntries_skip {gap skipped : List α} {fuel : ℕ}
    (hskipped : ∀ symbol ∈ skipped, symbol ≠ grammar.start) :
    grammar.findEntries (fuel + skipped.length) gap (skipped ++ text) =
      grammar.findEntries fuel (gap ++ skipped) text := by
  induction skipped generalizing gap with
  | nil => rw [List.append_nil, List.nil_append, List.length_nil, Nat.add_zero]
  | cons symbol skipped ih =>
    obtain ⟨hsymbol, hskipped⟩ := List.forall_mem_cons.mp hskipped
    rw [List.length_cons, ← Nat.add_assoc, List.cons_append, Grammar.findEntries,
      Grammar.readEntry, readKey_eq_none hsymbol, Option.bind_none]
    simp only
    rw [ih hskipped, List.append_assoc, List.singleton_append]

omit [DecidableEq α] in
theorem writeEntry_ne_nil (grammar : Grammar κ α) (entry : κ × List α) :
    grammar.writeEntry entry ≠ [] := by
  intro hnil
  have hhead := grammar.head_writeKey entry.1
  rw [(List.append_eq_nil_iff.mp hnil).1] at hhead
  cases hhead

theorem findEntries_of_readEntry {entry : κ × List α} {fuel : ℕ} (gap : List α)
    (hread : grammar.readEntry (grammar.writeEntry entry ++ rest) = some (entry, rest)) :
    grammar.findEntries (fuel + 1) gap (grammar.writeEntry entry ++ rest) =
      (⟨gap, entry.1, entry.2⟩ :: (grammar.findEntries fuel [] rest).1,
        (grammar.findEntries fuel [] rest).2) := by
  obtain ⟨symbol, others, hwrite⟩ :=
    List.exists_cons_of_ne_nil (writeEntry_ne_nil grammar entry)
  rw [hwrite, List.cons_append] at hread ⊢
  rw [Grammar.findEntries, hread]

omit [DecidableEq α] in
/-- Each entry but the first one is written behind a separator. -/
theorem writeEntries_cons (entry : κ × List α) (entries : List (κ × List α)) :
    grammar.writeEntries (entry :: entries) = grammar.writeEntry entry ++
      entries.flatMap fun other ↦ grammar.separator ++ grammar.writeEntry other := by
  unfold Grammar.writeEntries
  induction entries generalizing entry with
  | nil => simp
  | cons other entries ih =>
    rw [List.map_cons, List.map_cons, List.intercalate_cons_cons, ← List.map_cons, ih,
      List.flatMap_cons, List.append_assoc, List.append_assoc]

omit [DecidableEq α] in
theorem writeEntries_cons_cons (entry other : κ × List α) (entries : List (κ × List α)) :
    grammar.writeEntries (entry :: other :: entries) = grammar.writeEntry entry ++
      (grammar.separator ++ grammar.writeEntries (other :: entries)) := by
  rw [writeEntries_cons, writeEntries_cons, List.flatMap_cons, List.append_assoc]

omit [DecidableEq α] in
theorem mem_writeEntries {symbol : α} {entry : κ × List α} {entries : List (κ × List α)}
    (hentry : entry ∈ entries) (hsymbol : symbol ∈ grammar.writeEntry entry) :
    symbol ∈ grammar.writeEntries entries := by
  obtain ⟨first, others, rfl⟩ := List.exists_cons_of_ne_nil (List.ne_nil_of_mem hentry)
  rw [writeEntries_cons, List.mem_append]
  rcases List.mem_cons.mp hentry with rfl | hentry
  · exact Or.inl hsymbol
  · exact Or.inr (List.mem_flatMap.mpr ⟨entry, hentry, List.mem_append_right _ hsymbol⟩)

theorem atSeparator_separator (entry : κ × List α) (entries : List (κ × List α)) :
    grammar.atSeparator (grammar.separator ++ grammar.writeEntries (entry :: entries)) = true := by
  rw [writeEntries_cons, Grammar.writeEntry, List.append_assoc]
  exact atSeparator_iff.mpr ⟨entry.1, _, rfl⟩

/-- An entry without its gap. -/
def Found.entry (found : Found κ α) : κ × List α := (found.key, found.text)

/-- The entries that are found when they were written, from a gap on. -/
def found (separator : List α) : List α → List (κ × List α) → List (Found κ α)
  | _, [] => []
  | gap, entry :: entries => ⟨gap, entry.1, entry.2⟩ :: found separator separator entries

omit [DecidableEq α] in
theorem map_entry_found (separator gap : List α) (entries : List (κ × List α)) :
    (found separator gap entries).map Found.entry = entries := by
  induction entries generalizing gap with
  | nil => rfl
  | cons entry entries ih => rw [found, List.map_cons, ih, Found.entry]

omit [DecidableEq α] in
theorem gap_of_mem_found {separator gap : List α} {entries : List (κ × List α)} {entry : Found κ α}
    (hentry : entry ∈ found separator gap entries) : entry.gap = gap ∨ entry.gap = separator := by
  induction entries generalizing gap with
  | nil => cases hentry
  | cons first entries ih =>
    rcases List.mem_cons.mp hentry with rfl | hentry
    · exact Or.inl rfl
    · exact Or.inr ((or_self _).mp (ih hentry))

/-- All entries that were written are found. -/
theorem findEntries_write {entries : List (κ × List α)} {gap : List α} {fuel : ℕ}
    (hne : entries ≠ []) (hfree : ∀ entry ∈ entries, grammar.Free entry.2)
    (hfuel : (grammar.writeEntries entries).length ≤ fuel) :
    grammar.findEntries fuel gap (grammar.writeEntries entries) =
      (found grammar.separator gap entries, []) := by
  induction entries generalizing gap fuel with
  | nil => exact absurd rfl hne
  | cons entry entries ih =>
    obtain ⟨hentry, hfree⟩ := List.forall_mem_cons.mp hfree
    have hlength := List.length_pos_of_ne_nil (writeEntry_ne_nil grammar entry)
    cases entries with
    | nil =>
      have hwrite : grammar.writeEntries [entry] = grammar.writeEntry entry ++ [] := by
        rw [writeEntries_cons, List.flatMap_nil]
      rw [hwrite, List.append_nil] at hfuel
      obtain ⟨fuel, rfl⟩ : ∃ rest, fuel = rest + 1 := ⟨fuel - 1, by omega⟩
      rw [hwrite, findEntries_of_readEntry gap (readEntry_write hentry (Or.inl rfl))]
      cases fuel <;> rfl
    | cons other entries =>
      rw [writeEntries_cons_cons, List.length_append, List.length_append] at hfuel
      obtain ⟨fuel, rfl⟩ : ∃ rest, fuel = rest + grammar.separator.length + 1 :=
        ⟨fuel - grammar.separator.length - 1, by omega⟩
      rw [writeEntries_cons_cons, findEntries_of_readEntry gap
          (readEntry_write hentry (Or.inr (atSeparator_separator other entries))),
        findEntries_skip fun symbol hsymbol ↦ ne_start_of_mem hsymbol other.1, List.nil_append,
        ih (List.cons_ne_nil _ _) hfree (by omega)]
      rfl

/-! ### What is found was written -/

/-- The gaps and entries that are found are the text as a whole. -/
theorem append_findEntries (grammar : Grammar κ α) (fuel : ℕ) (gap text : List α) :
    ((grammar.findEntries fuel gap text).1.flatMap fun found ↦
      found.gap ++ grammar.writeEntry found.entry) ++ (grammar.findEntries fuel gap text).2 =
      gap ++ text := by
  fun_induction Grammar.findEntries grammar fuel gap text with
  | case1 gap text => rfl
  | case2 fuel gap => rw [List.append_nil]; rfl
  | case3 fuel gap symbol text key value rest hread found ih =>
    rw [List.flatMap_cons, List.append_assoc, ih, List.nil_append, List.append_assoc,
      (eq_of_readEntry hread).1]
    rfl
  | case4 fuel gap symbol text hread ih =>
    rw [ih, List.append_assoc, List.singleton_append]

theorem free_of_mem_findEntries {fuel : ℕ} {gap : List α} {entry : Found κ α}
    (hentry : entry ∈ (grammar.findEntries fuel gap text).1) : grammar.Free entry.text := by
  fun_induction Grammar.findEntries grammar fuel gap text with
  | case1 gap text => cases hentry
  | case2 fuel gap => cases hentry
  | case3 fuel gap symbol text key value rest hread found ih =>
    rcases List.mem_cons.mp hentry with rfl | hentry
    · exact (eq_of_readEntry hread).2.1
    · exact ih hentry
  | case4 fuel gap symbol text hread ih => exact ih hentry

theorem prefix_of_head_findEntries {fuel : ℕ} {gap : List α} {entry : Found κ α}
    (hentry : entry ∈ (grammar.findEntries fuel gap text).1.head?) : gap <+: entry.gap := by
  fun_induction Grammar.findEntries grammar fuel gap text with
  | case1 gap text => cases hentry
  | case2 fuel gap => cases hentry
  | case3 fuel gap symbol text key value rest hread found ih =>
    cases hentry
    exact List.prefix_rfl
  | case4 fuel gap symbol text hread ih => exact (List.prefix_append _ _).trans (ih hentry)

/-- The first entry behind a separator has a gap in front of it. -/
theorem gap_ne_nil_of_atSeparator {fuel : ℕ} {entry : Found κ α}
    (hat : grammar.atSeparator text = true)
    (hentry : entry ∈ (grammar.findEntries fuel [] text).1.head?) : entry.gap ≠ [] := by
  obtain ⟨key, rest, rfl⟩ := atSeparator_iff.mp hat
  have hmark : grammar.mark ≠ grammar.start := ne_start_of_mem List.mem_cons_self key
  cases fuel with
  | zero => cases hentry
  | succ fuel =>
    rw [Grammar.separator, List.cons_append, Grammar.findEntries, Grammar.readEntry,
      readKey_eq_none hmark, Option.bind_none] at hentry
    have hprefix := prefix_of_head_findEntries hentry
    exact fun hnil ↦ List.cons_ne_nil _ _ (List.prefix_nil.mp (hnil ▸ hprefix))

/-- All entries but the first one have a gap in front of them. -/
theorem gap_ne_nil_of_mem_tail {fuel : ℕ} {gap : List α} {entry : Found κ α}
    (hentry : entry ∈ (grammar.findEntries fuel gap text).1.tail) : entry.gap ≠ [] := by
  fun_induction Grammar.findEntries grammar fuel gap text with
  | case1 gap text => cases hentry
  | case2 fuel gap => cases hentry
  | case3 fuel gap symbol text key value rest hread found ih =>
    change entry ∈ (grammar.findEntries fuel [] rest).1 at hentry
    cases hfound : (grammar.findEntries fuel [] rest).1 with
    | nil =>
      rw [hfound] at hentry
      cases hentry
    | cons first others =>
      rw [hfound] at hentry
      rcases List.mem_cons.mp hentry with rfl | hentry
      · rcases (eq_of_readEntry hread).2.2 with rfl | hat
        · cases fuel <;> cases hfound
        · exact gap_ne_nil_of_atSeparator hat (by rw [hfound]; rfl)
      · exact ih (by rwa [hfound])
  | case4 fuel gap symbol text hread ih => exact ih hentry

/-- A text that does not start with a separator was written with the entries that are found, when
nothing but separators is left between them. -/
theorem eq_of_findEntries {fuel : ℕ} {entries : List (Found κ α)}
    (hfound : grammar.findEntries fuel [] text = (entries, [])) (hne : entries ≠ [])
    (hgaps : ∀ entry ∈ entries, entry.gap = [] ∨ entry.gap = grammar.separator)
    (hstart : ¬grammar.separator <+: text) :
    text = grammar.writeEntries (entries.map Found.entry) ∧
      ∀ entry ∈ entries, grammar.Free entry.text := by
  have hwhole := append_findEntries grammar fuel [] text
  have hfree : ∀ entry ∈ (grammar.findEntries fuel [] text).1, grammar.Free entry.text :=
    fun entry hentry ↦ free_of_mem_findEntries hentry
  have htail : ∀ entry ∈ (grammar.findEntries fuel [] text).1.tail, entry.gap ≠ [] :=
    fun entry hentry ↦ gap_ne_nil_of_mem_tail hentry
  rw [hfound] at hwhole hfree htail
  rw [List.append_nil, List.nil_append] at hwhole
  refine ⟨?_, hfree⟩
  obtain ⟨first, others, rfl⟩ := List.exists_cons_of_ne_nil hne
  obtain ⟨hfirst, hothers⟩ := List.forall_mem_cons.mp hgaps
  rw [List.flatMap_cons, List.append_assoc] at hwhole
  have hnil : first.gap = [] := hfirst.resolve_right fun hseparator ↦ hstart (by
    rw [← hwhole, hseparator]
    exact List.prefix_append _ _)
  rw [List.map_cons, writeEntries_cons, ← hwhole, hnil, List.nil_append, List.flatMap_map]
  refine congrArg (grammar.writeEntry first.entry ++ ·) ?_
  refine List.flatMap_congr fun other hother ↦ ?_
  rw [(hothers other hother).resolve_left (htail other hother)]

end Oamb.Foundation.SeparatedEntries
