import Oamb.Foundation.JsonText
import Oamb.Foundation.StatefulExecution
import Oamb.Foundation.Templates

/-!
# Prompts

A prompt pack has templates, as bytes, and declares the variables of all of them. `renderPrompt`
puts values at the placeholders of a template and keeps what it was made from, and
`exportPromptEvidence` gives this away after it has made the prompt once more.

A prompt is the literals of its template with the values between them, so no value is looked at for
placeholders. `renderPrompt_eq_ok` says when a prompt is made, and `exportPromptEvidence_isOk_iff`
that an export accepts exactly the prompts of the pack, as far as its texts are texts.
-/

set_option autoImplicit false

namespace Oamb.Workloads.PromptRendering

open Foundation

/-! ### Placeholders -/

def isLower (byte : UInt8) : Bool := 97 ≤ byte && byte ≤ 122

/-- A byte of a name behind the first one. -/
def isNameByte (byte : UInt8) : Bool := isLower byte || (48 ≤ byte && byte ≤ 57) || byte = 95

/-- The marks of a placeholder, as in `\{\{([a-z][a-z0-9_]*)\}\}`. -/
def braces : Templates.Marks UInt8 where
  opening := 123
  closing := 125
  first := isLower
  other := isNameByte
  first_opening := rfl
  other_opening := rfl
  other_closing := rfl
  opening_ne_closing := by decide

/-- The text of ASCII bytes. -/
def decodeAscii (name : Bytes) : String := String.ofList (name.map fun byte ↦ Char.ofNat byte.toNat)

def encodeUtf8 (text : String) : Bytes := JsonText.utf8 text.toList

/-! ### Prompt packs -/

/-- A digest, as it is written. -/
def isSha256 (text : String) : Bool :=
  text.toList.length = 64 && text.toList.all fun char ↦ char.isDigit || ('a' ≤ char && char ≤ 'f')

structure PromptTemplateManifest where
  templateName : String
  contentSha256 : String
  byteCount : ℕ

/-- The declared templates and variables of a pack. -/
structure PromptPackManifest where
  promptPackId : String
  templates : List PromptTemplateManifest
  declaredVariables : List String
  redistributionAllowed : Bool
  manifestSha256 : String
  names_nodup : (templates.map PromptTemplateManifest.templateName).Nodup
  declared_nodup : declaredVariables.Nodup
  declared_ne_nil : declaredVariables ≠ []

/-- The digest of some bytes. -/
abbrev Digest := Bytes → {text : String // isSha256 text = true}

/-- A pack has the templates that its manifest declares. -/
structure PromptPack (sha256 : Digest) where
  manifest : PromptPackManifest
  templates : Dictionary String Bytes
  keys_eq : ∀ name, name ∈ templates ↔
    name ∈ manifest.templates.map PromptTemplateManifest.templateName
  contents : ∀ template ∈ manifest.templates, ∀ content,
    templates.lookup template.templateName = some content →
      content.length = template.byteCount ∧ (sha256 content).1 = template.contentSha256

structure RenderedPrompt where
  canonicalBytes : Bytes
  sha256 : String
  promptPackId : Option String
  templateName : Option String
  variableNames : List String
  variableValues : List String
  variableValueSha256 : List String
  deriving DecidableEq

/-! ### Rendering -/

/-- Two lists have the same members. -/
def sameMembers (first second : List String) : Bool :=
  first.all (· ∈ second) && second.all (· ∈ first)

/-- The names of the placeholders of a template. -/
def placeholders (template : Bytes) : List String :=
  (Templates.names (Templates.scan braces 0 template)).map decodeAscii

/-- The value of a variable. -/
def valueOf (values : Dictionary String String) (name : String) : String :=
  (values.lookup name).getD ""

variable {sha256 : Digest}

def renderPrompt (pack : PromptPack sha256) (templateName : String)
    (values : Dictionary String String) : Except String RenderedPrompt :=
  let expected := pack.manifest.declaredVariables
  if sameMembers values.keys expected = false ∨ values.keys.length ≠ expected.length then
    .error "PromptPack variables must match the declared set exactly"
  else
    match pack.templates.lookup templateName with
    | none => .error s!"unknown PromptPack template: {templateName}"
    | some template =>
      if sameMembers (placeholders template) expected = false then
        .error "template placeholders must exactly cover declared variables"
      else
        let rendered := Templates.fill
          (fun name ↦ encodeUtf8 (valueOf values (decodeAscii name)))
          (Templates.scan braces 0 template)
        .ok
          { canonicalBytes := rendered
            sha256 := (sha256 rendered).1
            promptPackId := some pack.manifest.promptPackId
            templateName := some templateName
            variableNames := expected
            variableValues := expected.map (valueOf values)
            variableValueSha256 :=
              expected.map fun name ↦ (sha256 (encodeUtf8 (valueOf values name))).1 }

/-! ### Exports -/

structure PromptEvidence where
  promptPackId : String
  manifestSha256 : String
  templateName : String
  templateSha256 : String
  templateByteCount : ℕ
  renderedSha256 : String
  renderedByteCount : ℕ
  variableNames : List String
  variableValueSha256 : List String
  redistributionAllowed : Bool
  templateText : Option String
  renderedText : Option String

def decodeUtf8 (content : Bytes) : Except String String :=
  match JsonText.readUtf8 content with
  | some text => .ok (String.ofList text)
  | none => .error "invalid UTF-8"

/-- The template of a prompt that says that it is one of the pack. -/
def belongingTemplate (pack : PromptPack sha256) (rendered : RenderedPrompt) :
    Option (String × Bytes) := do
  let name ← rendered.templateName
  let template ← pack.templates.lookup name
  if rendered.promptPackId = some pack.manifest.promptPackId then some (name, template) else none

/-- The template that a prompt was made from, as it is made again. -/
def checkRendered (pack : PromptPack sha256) (rendered : RenderedPrompt) :
    Except String (String × Bytes) :=
  match belongingTemplate pack rendered with
  | none => .error "rendered prompt does not belong to the PromptPack"
  | some (templateName, template) =>
    if (sha256 rendered.canonicalBytes).1 ≠ rendered.sha256 then
      .error "rendered prompt hash does not match its bytes"
    else if rendered.variableNames ≠ pack.manifest.declaredVariables ∨
        rendered.variableValues.length ≠ pack.manifest.declaredVariables.length ∨
        rendered.variableValueSha256.length ≠ pack.manifest.declaredVariables.length ∨
        rendered.variableValueSha256.all isSha256 = false then
      .error "rendered prompt variables do not match the PromptPack"
    else
      match renderPrompt pack templateName
        (Dictionary.ofList (rendered.variableNames.zip rendered.variableValues)) with
      | .error message => .error message
      | .ok derived =>
        if derived ≠ rendered then
          .error "rendered prompt was not derived from the exact PromptPack variables"
        else .ok (templateName, template)

/-- Bytes that are given away as a text, if they are wanted. -/
def textIf (wanted : Bool) (content : Bytes) : Except String (Option String) :=
  if wanted then some <$> decodeUtf8 content else pure none

def exportPromptEvidence (pack : PromptPack sha256) (rendered : RenderedPrompt)
    (isPublic : Bool) : Except String PromptEvidence := do
  let template ← checkRendered pack rendered
  let templateText ← textIf (!isPublic || pack.manifest.redistributionAllowed) template.2
  let renderedText ← textIf (!isPublic) rendered.canonicalBytes
  pure
    { promptPackId := pack.manifest.promptPackId
      manifestSha256 := pack.manifest.manifestSha256
      templateName := template.1
      templateSha256 := (sha256 template.2).1
      templateByteCount := template.2.length
      renderedSha256 := rendered.sha256
      renderedByteCount := rendered.canonicalBytes.length
      variableNames := rendered.variableNames
      variableValueSha256 := rendered.variableValueSha256
      redistributionAllowed := pack.manifest.redistributionAllowed
      templateText
      renderedText }

/-! ### What is rendered -/

theorem sameMembers_iff {first second : List String} :
    sameMembers first second = true ↔ ∀ name, name ∈ first ↔ name ∈ second := by
  simp only [sameMembers, Bool.and_eq_true, List.all_eq_true, decide_eq_true_eq]
  exact ⟨fun hboth name ↦ ⟨hboth.1 name, hboth.2 name⟩,
    fun hsame ↦ ⟨fun name ↦ (hsame name).mp, fun name ↦ (hsame name).mpr⟩⟩

/-- The prompt of a template with some values. -/
def promptOf (pack : PromptPack sha256) (templateName : String) (template : Bytes)
    (values : Dictionary String String) : RenderedPrompt :=
  let expected := pack.manifest.declaredVariables
  let rendered := Templates.fill (fun name ↦ encodeUtf8 (valueOf values (decodeAscii name)))
    (Templates.scan braces 0 template)
  { canonicalBytes := rendered
    sha256 := (sha256 rendered).1
    promptPackId := some pack.manifest.promptPackId
    templateName := some templateName
    variableNames := expected
    variableValues := expected.map (valueOf values)
    variableValueSha256 :=
      expected.map fun name ↦ (sha256 (encodeUtf8 (valueOf values name))).1 }

/-- The values are exactly the declared ones, and so are the placeholders of the template. -/
structure Renders (pack : PromptPack sha256) (templateName : String) (template : Bytes)
    (values : Dictionary String String) : Prop where
  given : ∀ name, name ∈ values ↔ name ∈ pack.manifest.declaredVariables
  known : pack.templates.lookup templateName = some template
  used : ∀ name, name ∈ placeholders template ↔ name ∈ pack.manifest.declaredVariables

theorem length_keys {pack : PromptPack sha256} {values : Dictionary String String}
    (hgiven : ∀ name, name ∈ values ↔ name ∈ pack.manifest.declaredVariables) :
    values.keys.length = pack.manifest.declaredVariables.length :=
  ((List.perm_ext_iff_of_nodup values.nodupKeys pack.manifest.declared_nodup).mpr
    hgiven).length_eq

theorem renderPrompt_eq_ok {pack : PromptPack sha256} {templateName : String}
    {values : Dictionary String String} {rendered : RenderedPrompt} :
    renderPrompt pack templateName values = .ok rendered ↔
      ∃ template, Renders pack templateName template values ∧
        rendered = promptOf pack templateName template values := by
  unfold renderPrompt
  by_cases hgiven : ∀ name, name ∈ values ↔ name ∈ pack.manifest.declaredVariables
  · have hpass : ¬(sameMembers values.keys pack.manifest.declaredVariables = false ∨
        values.keys.length ≠ pack.manifest.declaredVariables.length) := by
      rw [sameMembers_iff.mpr hgiven, length_keys hgiven]
      simp
    simp only [hpass, if_false]
    cases hknown : pack.templates.lookup templateName with
    | none =>
      refine ⟨fun hok ↦ absurd hok (by simp), ?_⟩
      rintro ⟨template, hrenders, -⟩
      exact absurd (hknown.symm.trans hrenders.known) (by simp)
    | some template =>
      by_cases hused : sameMembers (placeholders template) pack.manifest.declaredVariables = true
      · simp only [hused, Bool.true_eq_false, if_false, Except.ok.injEq]
        constructor
        · rintro rfl
          exact ⟨template, ⟨hgiven, hknown, sameMembers_iff.mp hused⟩, rfl⟩
        · rintro ⟨other, hrenders, rfl⟩
          obtain rfl := Option.some_inj.mp (hknown.symm.trans hrenders.known)
          rfl
      · simp only [Bool.eq_false_iff.mpr hused, if_true, reduceCtorEq, false_iff, not_exists,
          not_and]
        intro other hrenders
        obtain rfl := Option.some_inj.mp (hknown.symm.trans hrenders.known)
        exact absurd (sameMembers_iff.mpr hrenders.used) hused
  · have hfail : sameMembers values.keys pack.manifest.declaredVariables = false ∨
        values.keys.length ≠ pack.manifest.declaredVariables.length :=
      Or.inl (Bool.eq_false_iff.mpr fun hsame ↦ hgiven (sameMembers_iff.mp hsame))
    simp only [hfail, if_true, reduceCtorEq, false_iff, not_exists, not_and]
    exact fun _ hrenders ↦ absurd hrenders.given hgiven

/-- A prompt depends on the values of the declared variables only. -/
theorem promptOf_congr {pack : PromptPack sha256} {templateName : String} {template : Bytes}
    {values others : Dictionary String String}
    (hused : ∀ name, name ∈ placeholders template ↔ name ∈ pack.manifest.declaredVariables)
    (hsame : ∀ name ∈ pack.manifest.declaredVariables, valueOf others name = valueOf values name) :
    promptOf pack templateName template others = promptOf pack templateName template values := by
  have hfill : Templates.fill (fun name ↦ encodeUtf8 (valueOf others (decodeAscii name)))
      (Templates.scan braces 0 template) =
      Templates.fill (fun name ↦ encodeUtf8 (valueOf values (decodeAscii name)))
        (Templates.scan braces 0 template) := by
    refine Templates.fill_congr fun name hname ↦ ?_
    rw [hsame _ ((hused _).mp (List.mem_map_of_mem hname))]
  unfold promptOf
  simp only [hfill, List.map_congr_left hsame]
  congr 1
  exact List.map_congr_left fun name hname ↦ by rw [hsame name hname]

theorem zip_map_self (names : List String) (value : String → String) :
    names.zip (names.map value) = names.map fun name ↦ (name, value name) := by
  induction names with
  | nil => rfl
  | cons name names ih => rw [List.map_cons, List.zip_cons_cons, ih, List.map_cons]

/-- The values that a prompt keeps give the prompt again. -/
theorem renders_kept {pack : PromptPack sha256} {templateName : String} {template : Bytes}
    {values : Dictionary String String} (hrenders : Renders pack templateName template values) :
    let kept := Dictionary.ofList (pack.manifest.declaredVariables.zip
      (pack.manifest.declaredVariables.map (valueOf values)))
    Renders pack templateName template kept ∧
      promptOf pack templateName template kept = promptOf pack templateName template values := by
  intro kept
  have hkeys : (pack.manifest.declaredVariables.zip
      (pack.manifest.declaredVariables.map (valueOf values))).map Prod.fst =
        pack.manifest.declaredVariables :=
    List.map_fst_zip (by simp)
  have hlookup : ∀ name ∈ pack.manifest.declaredVariables,
      kept.lookup name = some (valueOf values name) := by
    intro name hname
    refine (Dictionary.lookup_ofList (hkeys.symm ▸ pack.manifest.declared_nodup)).mpr ?_
    rw [zip_map_self]
    exact List.mem_map_of_mem hname
  refine ⟨⟨fun name ↦ ⟨fun hkept ↦ ?_, fun hname ↦ ?_⟩, hrenders.known, hrenders.used⟩, ?_⟩
  · by_contra habsent
    rw [← hkeys] at habsent
    have hnone := Dictionary.lookup_ofList_eq_none.mpr habsent
    exact AList.lookup_eq_none.mp hnone hkept
  · exact AList.lookup_isSome.mp (by rw [hlookup name hname]; rfl)
  · refine promptOf_congr hrenders.used fun name hname ↦ ?_
    unfold valueOf
    rw [hlookup name hname]
    rfl

/-! ### What is exported -/

/-- What is given away as a text is one. -/
def Exportable (pack : PromptPack sha256) (rendered : RenderedPrompt) (isPublic : Bool) : Prop :=
  (isPublic = false ∨ pack.manifest.redistributionAllowed = true →
    ∀ template, rendered.templateName.bind pack.templates.lookup = some template →
      (JsonText.readUtf8 template).isSome) ∧
  (isPublic = false → (JsonText.readUtf8 rendered.canonicalBytes).isSome)

theorem textIf_isOk_iff {wanted : Bool} {content : Bytes} :
    (∃ text, textIf wanted content = .ok text) ↔
      (wanted = true → (JsonText.readUtf8 content).isSome = true) := by
  unfold textIf decodeUtf8
  cases wanted with
  | false => simp [pure, Except.pure]
  | true => cases JsonText.readUtf8 content <;> simp [Functor.map, Except.map]

theorem belongingTemplate_eq_some_iff {pack : PromptPack sha256} {rendered : RenderedPrompt}
    {templateName : String} {template : Bytes} :
    belongingTemplate pack rendered = some (templateName, template) ↔
      rendered.templateName = some templateName ∧
        pack.templates.lookup templateName = some template ∧
        rendered.promptPackId = some pack.manifest.promptPackId := by
  unfold belongingTemplate
  simp only [bind, Option.bind_eq_some_iff, Option.ite_none_right_eq_some, Option.some_inj,
    Prod.mk.injEq]
  constructor
  · rintro ⟨name, hname, content, hcontent, hpack, rfl, rfl⟩
    exact ⟨hname, hcontent, hpack⟩
  · rintro ⟨hname, hcontent, hpack⟩
    exact ⟨templateName, hname, template, hcontent, hpack, rfl, rfl⟩

/-- The check passes exactly for what the pack renders from the template. -/
theorem checkRendered_eq_ok {pack : PromptPack sha256} {rendered : RenderedPrompt}
    {templateName : String} {template : Bytes} :
    checkRendered pack rendered = .ok (templateName, template) ↔
      ∃ values, Renders pack templateName template values ∧
        rendered = promptOf pack templateName template values := by
  unfold checkRendered
  constructor
  · intro hok
    cases hbelonging : belongingTemplate pack rendered with
    | none =>
      rw [hbelonging] at hok
      exact absurd hok (by simp)
    | some belonging =>
      obtain ⟨name, content⟩ := belonging
      simp only [hbelonging] at hok
      by_cases hhash : (sha256 rendered.canonicalBytes).1 ≠ rendered.sha256
      · rw [if_pos hhash] at hok
        exact absurd hok (by simp)
      · rw [if_neg hhash] at hok
        split at hok
        · exact absurd hok (by simp)
        · split at hok
          · exact absurd hok (by simp)
          · rename_i derived hderived
            split at hok
            · exact absurd hok (by simp)
            · rename_i hsame
              obtain ⟨rfl, rfl⟩ := Prod.mk.inj (Except.ok.inj hok)
              obtain ⟨other, hrenders, rfl⟩ := renderPrompt_eq_ok.mp hderived
              obtain rfl : other = content :=
                Option.some_inj.mp (hrenders.known.symm.trans
                  (belongingTemplate_eq_some_iff.mp hbelonging).2.1)
              exact ⟨_, hrenders, (Decidable.not_not.mp hsame).symm⟩
  · rintro ⟨values, hrenders, rfl⟩
    have hbelonging : belongingTemplate pack (promptOf pack templateName template values) =
        some (templateName, template) :=
      belongingTemplate_eq_some_iff.mpr ⟨rfl, hrenders.known, rfl⟩
    obtain ⟨hkept, hsame⟩ := renders_kept hrenders
    have hderived := renderPrompt_eq_ok.mpr ⟨template, hkept, rfl⟩
    rw [hsame] at hderived
    have hhashes : (promptOf pack templateName template values).variableValueSha256.all isSha256 =
        true := by
      refine List.all_eq_true.mpr fun digest hdigest ↦ ?_
      obtain ⟨name, -, rfl⟩ := List.mem_map.mp hdigest
      exact (sha256 _).2
    simp only [hbelonging]
    rw [if_neg (by simp [promptOf]), if_neg (by rw [hhashes]; simp [promptOf])]
    change (match renderPrompt pack templateName (Dictionary.ofList
      (pack.manifest.declaredVariables.zip (pack.manifest.declaredVariables.map (valueOf values))))
      with | .error _ => _ | .ok _ => _) = _
    rw [hderived]
    simp

/-- An export accepts a prompt exactly when the pack renders it, and its texts are texts. -/
theorem exportPromptEvidence_isOk_iff {pack : PromptPack sha256} {rendered : RenderedPrompt}
    {isPublic : Bool} :
    (∃ evidence, exportPromptEvidence pack rendered isPublic = .ok evidence) ↔
      (∃ templateName values, renderPrompt pack templateName values = .ok rendered) ∧
        Exportable pack rendered isPublic := by
  have htemplate : ∀ {templateName : String} {template : Bytes}
      {values : Dictionary String String}, Renders pack templateName template values →
      rendered = promptOf pack templateName template values →
      rendered.templateName.bind pack.templates.lookup = some template := by
    rintro templateName template values hrenders rfl
    exact hrenders.known
  unfold exportPromptEvidence
  constructor
  · rintro ⟨evidence, hok⟩
    obtain ⟨⟨templateName, template⟩, hcheck, hok⟩ := StatefulExecution.bind_eq_ok.mp hok
    obtain ⟨templateText, htext, hok⟩ := StatefulExecution.bind_eq_ok.mp hok
    obtain ⟨renderedText, hrendered, -⟩ := StatefulExecution.bind_eq_ok.mp hok
    obtain ⟨values, hrenders, hprompt⟩ := checkRendered_eq_ok.mp hcheck
    refine ⟨⟨templateName, values, renderPrompt_eq_ok.mpr ⟨template, hrenders, hprompt⟩⟩, ?_, ?_⟩
    · intro hwanted content hcontent
      obtain rfl : template = content :=
        Option.some_inj.mp ((htemplate hrenders hprompt).symm.trans hcontent)
      exact textIf_isOk_iff.mp ⟨templateText, htext⟩ (by simpa using hwanted)
    · intro hprivate
      exact textIf_isOk_iff.mp ⟨renderedText, hrendered⟩ (by simp [hprivate])
  · rintro ⟨⟨templateName, values, hok⟩, htexts, hrendered⟩
    obtain ⟨template, hrenders, hprompt⟩ := renderPrompt_eq_ok.mp hok
    have hcheck := checkRendered_eq_ok.mpr ⟨values, hrenders, hprompt⟩
    obtain ⟨templateText, htext⟩ :
        ∃ text, textIf (!isPublic || pack.manifest.redistributionAllowed) template = .ok text :=
      textIf_isOk_iff.mpr fun hwanted ↦
        htexts (by simpa using hwanted) template (htemplate hrenders hprompt)
    obtain ⟨renderedText, hrenderedText⟩ :
        ∃ text, textIf (!isPublic) rendered.canonicalBytes = .ok text :=
      textIf_isOk_iff.mpr fun hwanted ↦ hrendered (by simpa using hwanted)
    exact ⟨_, StatefulExecution.bind_eq_ok.mpr ⟨(templateName, template), hcheck,
      StatefulExecution.bind_eq_ok.mpr ⟨templateText, htext,
        StatefulExecution.bind_eq_ok.mpr ⟨renderedText, hrenderedText, rfl⟩⟩⟩⟩

/-! ### Prompts of a pack -/

/-- A digest that says nothing. -/
def zeroDigest : Digest := fun _ ↦ ⟨String.ofList (List.replicate 64 '0'), by decide⟩

/-- A template with one placeholder. -/
def sampleTemplate : Bytes := [123, 123, 97, 125, 125]

/-- A pack with a variable that its template does not have. -/
def samplePack : PromptPack zeroDigest where
  manifest :=
    { promptPackId := "pack"
      templates := [⟨"template", String.ofList (List.replicate 64 '0'), 5⟩]
      declaredVariables := ["a", "b"]
      redistributionAllowed := true
      manifestSha256 := String.ofList (List.replicate 64 '0')
      names_nodup := List.nodup_singleton _
      declared_nodup := by decide
      declared_ne_nil := List.cons_ne_nil _ _ }
  templates := (∅ : Dictionary String Bytes).insert "template" sampleTemplate
  keys_eq := fun name ↦ by
    rw [AList.mem_insert]
    simp
  contents := by
    intro template htemplate content hcontent
    rw [List.mem_singleton.mp htemplate] at hcontent ⊢
    rw [AList.lookup_insert, Option.some_inj] at hcontent
    subst hcontent
    exact ⟨rfl, rfl⟩

/-- Values whose names are the ones of the placeholders can be refused. -/
theorem refused_without_difference :
    ¬∀ (sha256 : Digest) (pack : PromptPack sha256) (templateName : String) (template : Bytes)
      (values : Dictionary String String), pack.templates.lookup templateName = some template →
      ((∀ rendered, renderPrompt pack templateName values ≠ .ok rendered) ↔
        sameMembers (placeholders template) values.keys = false) := by
  intro hall
  have hiff := hall zeroDigest samplePack "template" sampleTemplate
    ((∅ : Dictionary String String).insert "a" "") (AList.lookup_insert _)
  have hrefused : ∀ rendered, renderPrompt samplePack "template"
      ((∅ : Dictionary String String).insert "a" "") ≠ .ok rendered := by
    intro rendered hok
    obtain ⟨template, hrenders, -⟩ := renderPrompt_eq_ok.mp hok
    have hgiven := (hrenders.given "b").mpr (by decide)
    exact absurd hgiven (by decide)
  have hnames : sameMembers (placeholders sampleTemplate)
      ((∅ : Dictionary String String).insert "a" "").keys = true := by decide +kernel
  rw [hiff.mp hrefused] at hnames
  exact Bool.false_ne_true hnames

/-- A prompt is the literals of its template with the values between them, which is one way to take
the template apart; it is refused exactly when the values or the placeholders are not the declared
variables or the pack has no such template; and an export accepts the prompts of the pack and no
others, as far as what it gives away are texts. -/
theorem renderPrompt_sound (sha256 : Digest) (pack : PromptPack sha256) :
    (∀ template, ∃! layout : Templates.Layout UInt8,
      layout.Proper braces ∧ layout.source braces = template) ∧
    (∀ (layout : Templates.Layout UInt8) (templateName : String)
      (values : Dictionary String String) (rendered : RenderedPrompt), layout.Proper braces →
        pack.templates.lookup templateName = some (layout.source braces) →
        renderPrompt pack templateName values = .ok rendered →
        rendered.canonicalBytes =
          layout.filled fun name ↦ encodeUtf8 (valueOf values (decodeAscii name))) ∧
    (∀ (templateName : String) (values : Dictionary String String),
      (∃ rendered, renderPrompt pack templateName values = .ok rendered) ↔
        (∀ name, name ∈ values ↔ name ∈ pack.manifest.declaredVariables) ∧
        ∃ layout : Templates.Layout UInt8, layout.Proper braces ∧
          pack.templates.lookup templateName = some (layout.source braces) ∧
          ∀ name, name ∈ layout.names.map decodeAscii ↔
            name ∈ pack.manifest.declaredVariables) ∧
    (∀ (rendered : RenderedPrompt) (isPublic : Bool),
      (∃ evidence, exportPromptEvidence pack rendered isPublic = .ok evidence) ↔
        (∃ templateName values, renderPrompt pack templateName values = .ok rendered) ∧
          Exportable pack rendered isPublic) := by
  refine ⟨fun template ↦ Templates.existsUnique_layout template, ?_, ?_,
    fun rendered isPublic ↦ exportPromptEvidence_isOk_iff⟩
  · intro layout templateName values rendered hproper hknown hok
    obtain ⟨template, hrenders, rfl⟩ := renderPrompt_eq_ok.mp hok
    obtain rfl := Option.some_inj.mp (hknown.symm.trans hrenders.known)
    rw [promptOf, Templates.scan_source hproper, Templates.fill_pieces]
  · intro templateName values
    constructor
    · rintro ⟨rendered, hok⟩
      obtain ⟨template, hrenders, -⟩ := renderPrompt_eq_ok.mp hok
      obtain ⟨layout, hproper, rfl⟩ := Templates.exists_layout braces template
      refine ⟨hrenders.given, layout, hproper, hrenders.known, ?_⟩
      have hused := hrenders.used
      unfold placeholders at hused
      rwa [Templates.scan_source hproper, Templates.names_pieces] at hused
    · rintro ⟨hgiven, layout, hproper, hknown, hused⟩
      refine ⟨_, renderPrompt_eq_ok.mpr ⟨_, ⟨hgiven, hknown, ?_⟩, rfl⟩⟩
      unfold placeholders
      rwa [Templates.scan_source hproper, Templates.names_pieces]

end Oamb.Workloads.PromptRendering
