import Oamb.Foundation.FileSystem

/-!
# Paths of artifacts

An artifact is named by a relative POSIX path. `safeRelativePath` reads such a name and refuses the
ones that are absolute, escape, or have two spellings; `posix` writes a path, and the two are inverse
to each other.
-/

set_option autoImplicit false

namespace Oamb.Artifacts.ArtifactPaths

open Foundation

/-- An artifact path is absolute, escaping, or otherwise ambiguous. -/
def unsafePath : String := "artifact path must be a safe relative POSIX path"

/-- The components of a name. -/
def components (value : String) : Path := (value.toList.splitOn '/').map String.ofList

/-- Return an unambiguous, non-escaping POSIX artifact path. -/
def safeRelativePath (value : String) : Except String Path :=
  if value.isEmpty ∨ '\x00' ∈ value.toList ∨ '\\' ∈ value.toList ∨ value.toList.head? = some '/' then
    .error unsafePath
  else if (components value).any fun component ↦ component ∈ ["", ".", ".."] then .error unsafePath
  else .ok (components value)

/-- A name that is one component. -/
def safePathComponent (value : String) : Except String String :=
  match safeRelativePath value with
  | .error message => .error message
  | .ok path =>
    if path.length ≠ 1 then .error "artifact identifier must be one path component" else .ok value

/-- The text of a relative path. -/
def posix (path : Path) : String := String.ofList (['/'].intercalate (path.map String.toList))

/-- The components of the path have no separator. -/
def Plain (path : Path) : Prop := ∀ component ∈ path, '/' ∉ component.toList

theorem posix_components (value : String) : posix (components value) = value := by
  rw [posix, components, List.map_map]
  have hid : String.toList ∘ String.ofList = id := funext fun _ ↦ String.toList_ofList
  rw [hid, List.map_id, List.intercalate_splitOn, String.ofList_toList]

theorem components_posix {path : Path} (hplain : Plain path) (hnonempty : path ≠ []) :
    components (posix path) = path := by
  rw [posix, components, String.toList_ofList, List.splitOn_intercalate]
  · rw [List.map_map]
    have hid : String.ofList ∘ String.toList = id := funext fun _ ↦ String.ofList_toList
    rw [hid, List.map_id]
  · intro component hmem
    obtain ⟨name, hname, rfl⟩ := List.mem_map.mp hmem
    exact hplain name hname
  · simpa using hnonempty

theorem notMem_of_mem_splitOn {α : Type} [DecidableEq α] {separator : α} {list part : List α}
    (hpart : part ∈ list.splitOn separator) : separator ∉ part := by
  induction list generalizing part with
  | nil =>
    rw [List.splitOn_nil, List.mem_singleton] at hpart
    rw [hpart]
    exact List.not_mem_nil
  | cons head tail ih =>
    rw [List.splitOn, List.splitOnP_cons_eq_if_modifyHead] at hpart
    split_ifs at hpart with hhead
    · rcases List.mem_cons.mp hpart with rfl | htail
      · exact List.not_mem_nil
      · exact ih htail
    · cases hparts : tail.splitOnP (· == separator) with
      | nil => exact absurd hparts (List.splitOnP_ne_nil _ _)
      | cons first rest =>
        have hmem {other : List α} (hother : other ∈ first :: rest) : separator ∉ other :=
          ih (by rw [List.splitOn, hparts]; exact hother)
        rw [hparts, List.modifyHead_cons] at hpart
        rcases List.mem_cons.mp hpart with rfl | hrest
        · rw [List.mem_cons, not_or]
          refine ⟨fun heq ↦ hhead ?_, hmem List.mem_cons_self⟩
          rw [heq]
          exact beq_self_eq_true _
        · exact hmem (List.mem_cons_of_mem _ hrest)

theorem plain_components (value : String) : Plain (components value) := by
  intro component hmem
  obtain ⟨part, hpart, rfl⟩ := List.mem_map.mp hmem
  rw [String.toList_ofList]
  exact notMem_of_mem_splitOn hpart

theorem components_ne_nil (value : String) : components value ≠ [] := by
  rw [components, ne_eq, List.map_eq_nil_iff]
  exact List.splitOnP_ne_nil _ _

theorem posix_injective {first second : Path} (hfirst : Plain first) (hsecond : Plain second)
    (hfirstNonempty : first ≠ []) (hsecondNonempty : second ≠ [])
    (hposix : posix first = posix second) : first = second := by
  rw [← components_posix hfirst hfirstNonempty, hposix, components_posix hsecond hsecondNonempty]

theorem safeRelativePath_eq_ok {value : String} {path : Path}
    (hsafe : safeRelativePath value = .ok path) : path = components value := by
  rw [safeRelativePath] at hsafe
  split_ifs at hsafe
  cases hsafe
  rfl

theorem named_of_safeRelativePath {value : String} {path : Path}
    (hsafe : safeRelativePath value = .ok path) :
    value ≠ "" ∧ value.toList.head? ≠ some '/' := by
  rw [safeRelativePath] at hsafe
  split_ifs at hsafe with hcharacters
  simp only [not_or] at hcharacters
  exact ⟨fun hempty ↦ hcharacters.1 (String.isEmpty_iff.mpr hempty), hcharacters.2.2.2⟩

/-! ### Safe components -/

/-- The component can be part of a safe path. -/
structure SafeComponent (component : String) : Prop where
  named : component ∉ ["", ".", ".."]
  characters : ∀ char ∈ component.toList, char ∉ ['/', '\\', '\x00']

theorem SafeComponent.not_separator {component : String} (hsafe : SafeComponent component) :
    '/' ∉ component.toList :=
  fun hmem ↦ hsafe.characters _ hmem (by decide)

theorem plain_of_safe {path : Path} (hsafe : ∀ component ∈ path, SafeComponent component) :
    Plain path :=
  fun component hmem ↦ (hsafe component hmem).not_separator

theorem mem_posix {path : Path} (hnonempty : path ≠ []) {char : Char} :
    char ∈ (posix path).toList ↔
      (char = '/' ∧ path.length ≠ 1) ∨ ∃ component ∈ path, char ∈ component.toList := by
  rw [posix, String.toList_ofList]
  induction path with
  | nil => exact absurd rfl hnonempty
  | cons component rest ih =>
    cases rest with
    | nil => simp
    | cons next rest =>
      rw [List.map_cons, List.map_cons, List.intercalate_cons_cons, ← List.map_cons,
        List.mem_append, List.mem_append, List.mem_singleton, ih (List.cons_ne_nil _ _)]
      constructor
      · rintro ((hcomponent | hseparator) | (⟨hseparator, -⟩ | ⟨other, hmem, hother⟩))
        · exact Or.inr ⟨component, List.mem_cons_self, hcomponent⟩
        · exact Or.inl ⟨hseparator, by simp⟩
        · exact Or.inl ⟨hseparator, by simp⟩
        · exact Or.inr ⟨other, List.mem_cons_of_mem _ hmem, hother⟩
      · rintro (⟨hseparator, -⟩ | ⟨other, hmem, hother⟩)
        · exact Or.inl (Or.inr hseparator)
        · rcases List.mem_cons.mp hmem with rfl | hmem
          · exact Or.inl (Or.inl hother)
          · exact Or.inr (Or.inr ⟨other, hmem, hother⟩)

theorem mem_of_mem_components {value component : String} (hmem : component ∈ components value)
    {char : Char} (hchar : char ∈ component.toList) : char ∈ value.toList := by
  rw [← posix_components value, mem_posix (components_ne_nil value)]
  exact Or.inr ⟨component, hmem, hchar⟩

theorem safeComponent_of_mem {value : String} {path : Path}
    (hpath : safeRelativePath value = .ok path) {component : String} (hmem : component ∈ path) :
    SafeComponent component := by
  obtain rfl := safeRelativePath_eq_ok hpath
  rw [safeRelativePath] at hpath
  split_ifs at hpath with hcharacters hnames
  simp only [not_or] at hcharacters
  obtain ⟨-, hnull, hbackslash, -⟩ := hcharacters
  refine ⟨fun hbad ↦ hnames (List.any_eq_true.mpr ⟨component, hmem, decide_eq_true hbad⟩),
    fun char hchar hbad ↦ ?_⟩
  simp only [List.mem_cons, List.not_mem_nil, or_false] at hbad
  rcases hbad with rfl | rfl | rfl
  · exact plain_components value component hmem hchar
  · exact hbackslash (mem_of_mem_components hmem hchar)
  · exact hnull (mem_of_mem_components hmem hchar)

/-- A path of safe components is read back. -/
theorem safeRelativePath_posix {path : Path} (hnonempty : path ≠ [])
    (hsafe : ∀ component ∈ path, SafeComponent component) :
    safeRelativePath (posix path) = .ok path := by
  have hcharacter {char : Char} (hchar : char ∈ ['\\', '\x00']) : char ∉ (posix path).toList := by
    rw [mem_posix hnonempty]
    rintro (⟨rfl, -⟩ | ⟨component, hmem, hcomponent⟩)
    · exact absurd hchar (by decide)
    · exact (hsafe component hmem).characters char hcomponent (List.mem_cons_of_mem _ hchar)
  obtain ⟨first, rest, rfl⟩ := List.exists_cons_of_ne_nil hnonempty
  obtain ⟨hnamed, -⟩ := hsafe first List.mem_cons_self
  have hfirst := (hsafe first List.mem_cons_self).not_separator
  obtain ⟨char, chars, hchars⟩ : ∃ char chars, first.toList = char :: chars := by
    refine List.exists_cons_of_ne_nil fun hempty ↦ hnamed ?_
    rw [String.toList_eq_nil_iff.mp hempty]
    exact List.mem_cons_self
  have hhead : (posix (first :: rest)).toList.head? = some char := by
    rw [posix, String.toList_ofList, List.map_cons, hchars]
    cases rest with
    | nil => rw [List.map_nil, List.intercalate_singleton, List.head?_cons]
    | cons next rest => rw [List.map_cons, List.intercalate_cons_cons]; rfl
  rw [safeRelativePath, components_posix (plain_of_safe hsafe) hnonempty, if_neg, if_neg]
  · rw [List.any_eq_true]
    rintro ⟨component, hmem, hbad⟩
    exact (hsafe component hmem).named (of_decide_eq_true hbad)
  · rintro (hempty | hnull | hbackslash | hseparator)
    · rw [String.isEmpty_iff] at hempty
      rw [hempty] at hhead
      cases hhead
    · exact hcharacter (by decide) hnull
    · exact hcharacter (by decide) hbackslash
    · rw [hhead, Option.some.injEq] at hseparator
      rw [hchars, hseparator] at hfirst
      exact hfirst List.mem_cons_self

end Oamb.Artifacts.ArtifactPaths
