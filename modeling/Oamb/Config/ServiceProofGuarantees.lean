import Oamb.Config.ServiceProofs
import Oamb.Foundation.StatefulExecution

/-!
# What published proofs keep secret

Reading a document drops a member whose name stands again behind it. A sealed proof is free of
authorities unless all of those of its document are dropped (`clean_iff`), and a proof that is read
is free of secrets unless a sensitive member is dropped or changed with a secret, or the structure of
an OpenAPI document has a scalar secret at a sensitive name (`secretFree_iff`).
-/

set_option autoImplicit false

namespace Oamb.Config.ServiceProofGuarantees

open Foundation Foundation.Json Foundation.JsonTrees Foundation.StatefulExecution ServiceProofs

/-! ### Sealed proofs -/

/-- No text of the value names an authority or a private path. -/
def Clean (value : Json) : Prop :=
  ∀ path text, Occurs value path (.string text) → isControlAuthority text = false

/-- A text of the value names an authority or a private path. -/
def HasAuthority (value : Json) : Prop :=
  ∃ path text, Occurs value path (.string text) ∧ isControlAuthority text = true

theorem clean_iff_not_hasAuthority (value : Json) : Clean value ↔ ¬ HasAuthority value := by
  constructor
  · rintro hclean ⟨path, text, hoccurs, hauthority⟩
    rw [hclean path text hoccurs] at hauthority
    cases hauthority
  · intro hnone path text hoccurs
    exact Bool.eq_false_of_not_eq_true fun hauthority ↦ hnone ⟨path, text, hoccurs, hauthority⟩

theorem redactItems_eq_map (items : List Json) :
    redactItems items = items.map redactControlAuthorities := by
  induction items with
  | nil => rfl
  | cons item items ih => rw [redactItems, ih, List.map_cons]

theorem redactMembers_eq_map (members : List (String × Json)) :
    redactMembers members =
      members.map fun member ↦ (member.1, redactControlAuthorities member.2) := by
  induction members with
  | nil => rfl
  | cons member members ih => rw [redactMembers, ih, List.map_cons]

theorem pointwise_redact : Pointwise redactControlAuthorities := by
  constructor
  · intro value members hvalue
    cases value with
    | object before =>
      rw [redactControlAuthorities, Json.object.injEq, redactMembers_eq_map] at hvalue
      subst hvalue
      refine ⟨before, rfl, fun member hmem ↦ ?_⟩
      obtain ⟨⟨name, child⟩, hchild, rfl⟩ := List.mem_map.mp hmem
      exact ⟨child, hchild, rfl⟩
    | _ => cases hvalue
  · intro value items hvalue
    cases value with
    | array before =>
      rw [redactControlAuthorities, Json.array.injEq, redactItems_eq_map] at hvalue
      subst hvalue
      refine ⟨before, rfl, fun item hmem ↦ ?_⟩
      obtain ⟨child, hchild, rfl⟩ := List.mem_map.mp hmem
      exact ⟨child, hchild, rfl⟩
    | _ => cases hvalue

theorem not_isControlAuthority_redactedValue : isControlAuthority redactedValue = false := by
  decide +kernel

/-- What is redacted is clean. -/
theorem clean_redact (value : Json) : Clean (redactControlAuthorities value) := by
  intro path text hoccurs
  obtain ⟨source, -, hsource⟩ := pointwise_redact.occurs hoccurs
  cases source with
  | string before =>
    rw [redactControlAuthorities, Json.string.injEq] at hsource
    subst hsource
    by_cases hauthority : isControlAuthority before = true
    · rw [if_pos hauthority]
      exact not_isControlAuthority_redactedValue
    · rw [if_neg hauthority]
      exact Bool.eq_false_of_not_eq_true hauthority
  | _ => cases hsource

mutual

/-- Nothing is redacted in a clean value. -/
theorem redact_eq_self : ∀ value : Json, Clean value → redactControlAuthorities value = value
  | .null, _ | .bool _, _ | .integer _, _ | .real _ _, _ => rfl
  | .string text, hclean => by
    rw [redactControlAuthorities, hclean [] text (.here _)]
    rfl
  | .array items, hclean => by
    rw [redactControlAuthorities, redactItems_eq_self items fun item hitem path text hoccurs ↦
      hclean path text (.item hitem hoccurs)]
  | .object members, hclean => by
    rw [redactControlAuthorities, redactMembers_eq_self members
      fun member hmember path text hoccurs ↦
        hclean (member.1 :: path) text (.member hmember hoccurs)]

theorem redactItems_eq_self : ∀ items : List Json, (∀ item ∈ items, Clean item) →
    redactItems items = items
  | [], _ => rfl
  | item :: items, hclean => by
    rw [redactItems, redact_eq_self item (hclean item List.mem_cons_self),
      redactItems_eq_self items fun other hother ↦ hclean other (List.mem_cons_of_mem _ hother)]

theorem redactMembers_eq_self : ∀ members : List (String × Json),
    (∀ member ∈ members, Clean member.2) → redactMembers members = members
  | [], _ => rfl
  | (name, value) :: members, hclean => by
    rw [redactMembers, redact_eq_self value (hclean (name, value) List.mem_cons_self),
      redactMembers_eq_self members fun other hother ↦
        hclean other (List.mem_cons_of_mem _ hother)]

end

/-- A writing does not bring an authority to what it writes. -/
theorem Clean.sorted {value : Json} (hclean : Clean value) : Clean (JsonText.sorted value) := by
  intro path text hoccurs
  obtain ⟨source, hsource, htext⟩ := pointwise_sorted.occurs hoccurs
  cases source with
  | string before =>
    cases htext
    exact hclean path text hsource
  | _ => cases htext

theorem Clean.asDictionaries {value : Json} (hclean : Clean value) :
    Clean (JsonTrees.asDictionaries value) := by
  intro path text hoccurs
  obtain ⟨source, hsource, htext⟩ := pointwise_asDictionaries.occurs hoccurs
  cases source with
  | string before =>
    cases htext
    exact hclean path text hsource
  | _ => cases htext

theorem isNaN_eq_false {value : Json} (hfinite : hasNonFinite value = false) :
    isNaN value = false := by
  cases value with
  | real finite text =>
    rw [isNaN, show (!finite) = false from hfinite]
    rfl
  | _ => rfl

/-- A sealed proof is clean unless all authorities of its document are dropped when it is read. -/
theorem clean_iff {content document : Json} (hsealed : publicProof content = .ok document) :
    Clean document ↔ (HasAuthority content → HasAuthority (asDictionaries content)) := by
  rw [publicProof] at hsealed
  by_cases hsame : (same (redactControlAuthorities (asDictionaries content))
      (asDictionaries content) && !isNaN (asDictionaries content)) = true
  · simp only [if_pos hsame] at hsealed
    cases hsealed
    rw [Bool.and_eq_true, same_iff] at hsame
    have hread : Clean (asDictionaries content) := hsame.1 ▸ clean_redact _
    rw [clean_iff_not_hasAuthority] at hread ⊢
    exact ⟨fun hnone hhas ↦ absurd hhas hnone, fun hkept hhas ↦ hread (hkept hhas)⟩
  · simp only [if_neg hsame, canonicalJson] at hsealed
    by_cases hfinite : hasNonFinite (redactControlAuthorities (asDictionaries content)) = true
    · rw [if_pos hfinite] at hsealed
      cases hsealed
    · rw [if_neg hfinite] at hsealed
      cases hsealed
      refine ⟨fun _ _ ↦ ?_, fun _ ↦ (clean_redact _).sorted⟩
      by_contra hnone
      have heq := redact_eq_self _ ((clean_iff_not_hasAuthority _).mpr hnone)
      refine hsame ?_
      rw [heq] at hfinite ⊢
      rw [Bool.and_eq_true, same_iff]
      refine ⟨rfl, ?_⟩
      rw [isNaN_eq_false (Bool.eq_false_of_not_eq_true hfinite)]
      rfl

/-- A sealed proof is sealed as it is. -/
theorem publicProof_idempotent (content : Json) :
    publicProof content >>= publicProof = publicProof content := by
  by_cases hsame : (same (redactControlAuthorities (asDictionaries content))
      (asDictionaries content) && !isNaN (asDictionaries content)) = true
  · have hsealed : publicProof content = .ok content := if_pos hsame
    rw [hsealed]
    exact hsealed
  · simp only [publicProof, if_neg hsame, canonicalJson]
    split_ifs with hfinite
    · rfl
    · have hclean := (clean_redact (asDictionaries content)).sorted.asDictionaries
      refine if_pos ?_
      rw [redact_eq_self _ hclean, Bool.and_eq_true, same_iff]
      refine ⟨rfl, ?_⟩
      generalize redactControlAuthorities (asDictionaries content) = redacted at hfinite
      rw [Bool.not_eq_true']
      cases redacted with
      | real => exact isNaN_eq_false (Bool.eq_false_of_not_eq_true hfinite)
      | _ => rfl

/-! ### Schema metadata -/

section Schemas

variable (methods : TextMethods)

/-- A scalar that states nothing but the form of a schema for a property. -/
inductive SchemaScalar (property : Option String) : Json → Prop
  | null : SchemaScalar property .null
  | flag (value : Bool) : SchemaScalar property (.bool value)
  | type {text : String} (hknown : text ∈ openapiJsonTypes) : SchemaScalar property (.string text)
  | format {text : String} (hknown : text ∈ openapiSafeFormats) :
    SchemaScalar property (.string text)
  | reference {text : String} (hlocal : isLocalSchemaReference text = true) :
    SchemaScalar property (.string text)
  | title {name : String} (hname : name ∈ property) :
    SchemaScalar property (.string (methods.title (name.replace "_" " ")))

/-- Every scalar in the value states nothing but the form of a schema, under the names of one. -/
def ValueFree (property : Option String) (value : Json) : Prop :=
  ∀ path scalar, Occurs value path scalar → isScalar scalar = true →
    SchemaScalar methods property scalar ∧ ∀ name ∈ path, name ∈ openapiSensitiveSchemaKeys

variable {methods}

theorem SchemaScalar.mono {property : Option String} {value : Json}
    (hscalar : SchemaScalar methods none value) : SchemaScalar methods property value := by
  cases hscalar with
  | null => exact .null
  | flag value => exact .flag value
  | type hknown => exact .type hknown
  | format hknown => exact .format hknown
  | reference hlocal => exact .reference hlocal
  | title hname => cases hname

theorem ValueFree.mono {property : Option String} {value : Json}
    (hfree : ValueFree methods none value) : ValueFree methods property value :=
  fun path scalar hoccurs hscalar ↦ (hfree path scalar hoccurs hscalar).imp_left .mono

/-- A scalar of a schema is free of values. -/
theorem SchemaScalar.valueFree {property : Option String} {value : Json}
    (hschema : SchemaScalar methods property value) (hscalar : isScalar value = true) :
    ValueFree methods property value := by
  intro path scalar hoccurs _
  obtain ⟨rfl, rfl⟩ := (occurs_of_isScalar hscalar).mp hoccurs
  exact ⟨hschema, fun name hname ↦ absurd hname List.not_mem_nil⟩

theorem valueFree_array {property : Option String} {items : List Json}
    (hitems : ∀ item ∈ items, ValueFree methods property item) :
    ValueFree methods property (.array items) := by
  intro path scalar hoccurs hscalar
  cases hoccurs with
  | here => cases hscalar
  | item hmem hinside => exact hitems _ hmem path scalar hinside hscalar

theorem valueFree_object {property : Option String} {members : List (String × Json)}
    (hnames : ∀ member ∈ members, member.1 ∈ openapiSensitiveSchemaKeys)
    (hmembers : ∀ member ∈ members, ValueFree methods property member.2) :
    ValueFree methods property (.object members) := by
  intro path scalar hoccurs hscalar
  cases hoccurs with
  | here => cases hscalar
  | member hmem hinside =>
    have hfree := hmembers _ hmem _ scalar hinside hscalar
    exact ⟨hfree.1, List.forall_mem_cons.mpr ⟨hnames _ hmem, hfree.2⟩⟩

theorem isOneOf_eq_ok {texts : List String} {value : Json} (hone : isOneOf texts value = .ok true) :
    ∃ text ∈ texts, value = .string text := by
  cases value with
  | string text => exact ⟨text, of_decide_eq_true (Except.ok.inj hone), rfl⟩
  | _ => cases hone

theorem allOneOf_eq_ok {texts : List String} {message : String} {items : List Json}
    (hall : allOneOf texts message items = .ok ()) :
    ∀ item ∈ items, ∃ text ∈ texts, item = .string text := by
  induction items with
  | nil => exact fun item hitem ↦ absurd hitem List.not_mem_nil
  | cons first items ih =>
    rw [allOneOf, bind_eq_ok] at hall
    obtain ⟨known, hknown, hrest⟩ := hall
    cases known with
    | false => cases hrest
    | true => exact List.forall_mem_cons.mpr ⟨isOneOf_eq_ok hknown, ih hrest⟩

/-- Values that are each one of the texts are free of values, when these are. -/
theorem valueFree_of_allOneOf {property : Option String} {texts : List String} {message : String}
    {items : List Json} (hall : allOneOf texts message items = .ok ())
    (htexts : ∀ text ∈ texts, SchemaScalar methods property (.string text)) :
    ∀ item ∈ items, ValueFree methods property item := by
  intro item hitem
  obtain ⟨text, htext, rfl⟩ := allOneOf_eq_ok hall item hitem
  exact (htexts text htext).valueFree rfl

theorem eq_string_of_isText {value : Json} {text : String} (htext : value.isText text = true) :
    value = .string text := by
  cases value with
  | string other =>
    have hsame : some other = some text := of_decide_eq_true htext
    rw [Option.some.inj hsame]
  | _ => cases htext

theorem valueFree_of_isExpectedTitle {property : Option String} {value : Json}
    (htitle : isExpectedTitle methods property value = true) :
    ValueFree methods property value := by
  rw [isExpectedTitle] at htitle
  cases hproperty : property.filter (· ≠ "") with
  | none =>
    rw [hproperty] at htitle
    cases value with
    | null => exact SchemaScalar.null.valueFree rfl
    | _ => cases htitle
  | some name =>
    rw [hproperty] at htitle
    rw [eq_string_of_isText htitle]
    exact (SchemaScalar.title (Option.filter_eq_some_iff.mp hproperty).1).valueFree rfl

theorem valueFree_of_validatePlainField {property : Option String} {field : String} {value : Json}
    (hvalid : validatePlainField methods property field value = .ok ()) :
    ValueFree methods property value := by
  rw [validatePlainField] at hvalid
  by_cases htype : field = "type"
  · rw [if_pos htype] at hvalid
    by_cases hempty : listedValues value = []
    · rw [if_pos hempty] at hvalid
      cases hvalid
    · rw [if_neg hempty] at hvalid
      have hlisted : ∀ item ∈ listedValues value, ValueFree methods property item :=
        valueFree_of_allOneOf hvalid fun _ ↦ .type
      cases value with
      | array items => exact valueFree_array hlisted
      | _ => exact hlisted _ List.mem_cons_self
  rw [if_neg htype] at hvalid
  by_cases hformat : field = "format"
  · rw [if_pos hformat] at hvalid
    exact valueFree_of_allOneOf hvalid (fun _ ↦ .format) value List.mem_cons_self
  rw [if_neg hformat] at hvalid
  by_cases hreference : field = "$ref"
  · rw [if_pos hreference] at hvalid
    by_cases hlocal : value.asText.any isLocalSchemaReference = true
    · cases value with
      | string text => exact (SchemaScalar.reference hlocal).valueFree rfl
      | _ => cases hlocal
    · rw [if_neg hlocal] at hvalid
      cases hvalid
  rw [if_neg hreference] at hvalid
  by_cases htitle : field = "title"
  · rw [if_pos htitle] at hvalid
    by_cases hexpected : isExpectedTitle methods property value = true
    · exact valueFree_of_isExpectedTitle hexpected
    · rw [if_neg hexpected] at hvalid
      cases hvalid
  rw [if_neg htitle] at hvalid
  by_cases hflag : isFlag value = true
  · cases value with
    | bool flag => exact (SchemaScalar.flag flag).valueFree rfl
    | _ => cases hflag
  · rw [if_neg hflag] at hvalid
    cases hvalid

mutual

/-- A sensitive schema that is valid is free of values. -/
theorem valueFree_of_validate : ∀ (value : Json) (property : Option String),
    validateSensitiveOpenapiSchema methods property value = .ok () →
    ValueFree methods property value
  | .object members, property, hvalid => by
    rw [validateSensitiveOpenapiSchema] at hvalid
    by_cases hnames : (members.all fun member ↦ member.1 ∈ openapiSensitiveSchemaKeys) = true
    · rw [if_pos hnames] at hvalid
      refine valueFree_object (fun member hmember ↦ ?_)
        (valueFree_of_validateFields members property hvalid)
      exact of_decide_eq_true (List.all_eq_true.mp hnames member hmember)
    · rw [if_neg hnames] at hvalid
      cases hvalid
  | .null, _, hvalid | .bool _, _, hvalid | .integer _, _, hvalid | .real _ _, _, hvalid
  | .string _, _, hvalid | .array _, _, hvalid => nomatch hvalid

theorem valueFree_of_validateFields : ∀ (fields : List (String × Json)) (property : Option String),
    validateSchemaFields methods property fields = .ok () →
    ∀ field ∈ fields, ValueFree methods property field.2
  | [], _, _ => fun field hfield ↦ absurd hfield List.not_mem_nil
  | (field, value) :: fields, property, hvalid => by
    rw [validateSchemaFields, bind_eq_ok] at hvalid
    obtain ⟨_, hfirst, hrest⟩ := hvalid
    refine List.forall_mem_cons.mpr ⟨?_, valueFree_of_validateFields fields property hrest⟩
    by_cases hplain : field ∈ plainFields
    · rw [if_pos hplain] at hfirst
      exact valueFree_of_validatePlainField hfirst
    rw [if_neg hplain] at hfirst
    by_cases hitems : field = "items"
    · rw [if_pos hitems] at hfirst
      exact (valueFree_of_validate value none hfirst).mono
    · rw [if_neg hitems] at hfirst
      exact (valueFree_of_validateSchemaVariants value hfirst).mono

theorem valueFree_of_validateSchemaVariants : ∀ value : Json,
    validateSchemaVariants methods value = .ok () → ValueFree methods none value
  | .array variants, hvalid => by
    rw [validateSchemaVariants] at hvalid
    by_cases hempty : variants.isEmpty = true
    · rw [if_pos hempty] at hvalid
      cases hvalid
    · rw [if_neg hempty] at hvalid
      exact valueFree_array (valueFree_of_validateVariants variants hvalid)
  | .null, hvalid | .bool _, hvalid | .integer _, hvalid | .real _ _, hvalid | .string _, hvalid
  | .object _, hvalid => nomatch hvalid

theorem valueFree_of_validateVariants : ∀ variants : List Json,
    validateVariants methods variants = .ok () →
    ∀ variant ∈ variants, ValueFree methods none variant
  | [], _ => fun variant hvariant ↦ absurd hvariant List.not_mem_nil
  | variant :: variants, hvalid => by
    rw [validateVariants, bind_eq_ok] at hvalid
    obtain ⟨_, hfirst, hrest⟩ := hvalid
    refine List.forall_mem_cons.mpr ⟨?_, valueFree_of_validateVariants variants hrest⟩
    by_cases hobject : variant.isObject = true
    · rw [if_pos hobject] at hfirst
      exact valueFree_of_validate variant none hfirst
    · rw [if_neg hobject] at hfirst
      cases hfirst

end

end Schemas

/-! ### Sensitive members -/

/-- A member with a sensitive name, the path to it with its name, and its value. -/
def SensitiveMember (tree : Json) (path : List String) (value : Json) : Prop :=
  ∃ parent name members, path = parent ++ [name] ∧ Occurs tree parent (.object members) ∧
    (name, value) ∈ members ∧ isSensitiveKey name = true

/-- Every scalar of the value is nothing or redacted. -/
def Redacted (value : Json) : Prop := ∀ path scalar, Occurs value path scalar →
  isUnredacted scalar = false

section Reading

variable (methods : TextMethods) (allowed : Bool)

/-- The value of a sensitive member shows no secret: it is redacted, or it is the structure of an
OpenAPI document or the schema of one of its properties. -/
def Guarded (path : List String) (value : Json) : Prop :=
  Redacted value ∨
    allowed = true ∧ isOpenapiStructuralName methods path = true ∧ value.isObject = true ∨
    allowed = true ∧ isOpenapiSchemaProperty path = true ∧ value.isObject = true ∧
      ValueFree methods path.getLast? value

/-- Every sensitive member of the document is guarded. -/
def SecretFree (content : Json) : Prop :=
  ∀ path value, SensitiveMember content path value → Guarded methods allowed path value

/-- Every sensitive member that is not guarded is a member of what is read. -/
def KeepsSecrets (content : Json) : Prop :=
  ∀ path value, SensitiveMember content path value → ¬ Guarded methods allowed path value →
    SensitiveMember (asDictionaries content) path value

/-- Every sensitive member in the structure of an OpenAPI document is an object or redacted. -/
def StructuresGuarded (content : Json) : Prop :=
  ∀ path value, SensitiveMember content path value → allowed = true →
    isOpenapiStructuralName methods path = true → Redacted value ∨ value.isObject = true

variable {methods allowed}

/-- What the check of a value says, without what the value contains. -/
theorem check_eq_ok {path : List String} {sensitive last : Bool} {value : Json}
    (hcheck : checkSecretFreeValue methods allowed path sensitive value = .ok last) :
    last = (sensitive || isSensitivePath methods allowed path &&
        !isSchemaMetadata methods allowed path value) ∧
      (last = true → isUnredacted value = false) ∧
      (isSchemaMetadata methods allowed path value = true →
        validateSensitiveOpenapiSchema methods path.getLast? value = .ok ()) := by
  have hrest : ∀ container : Bool, (if (container && isUnredacted value) = true then
      .error "provider proof contains an unredacted secret" else .ok container :
        Except String Bool) = .ok last →
      last = container ∧ (last = true → isUnredacted value = false) := by
    intro container hresult
    by_cases hsecret : (container && isUnredacted value) = true
    · rw [if_pos hsecret] at hresult
      cases hresult
    · rw [if_neg hsecret] at hresult
      cases hresult
      refine ⟨rfl, fun hcontainer ↦ Bool.eq_false_of_not_eq_true fun hunredacted ↦ hsecret ?_⟩
      rw [hcontainer, hunredacted]
      rfl
  by_cases hmetadata : isSchemaMetadata methods allowed path value = true
  · simp only [checkSecretFreeValue, hmetadata, if_true] at hcheck
    obtain ⟨_, hschema, hresult⟩ := bind_eq_ok.mp hcheck
    obtain ⟨rfl, hunredacted⟩ := hrest _ hresult
    exact ⟨by rw [hmetadata], hunredacted, fun _ ↦ hschema⟩
  · rw [Bool.not_eq_true] at hmetadata
    simp only [checkSecretFreeValue, hmetadata] at hcheck
    obtain ⟨rfl, hunredacted⟩ := hrest _ hcheck
    exact ⟨by rw [hmetadata], hunredacted, fun hschema ↦ absurd hschema (by simp [hmetadata])⟩

theorem validateMembers_iff {path : List String} {sensitive : Bool}
    {members : List (String × Json)} :
    validateSecretFreeMembers methods allowed path sensitive members = .ok () ↔
      ∀ member ∈ members,
        validateSecretFreeValue methods allowed (path ++ [member.1]) sensitive member.2 =
          .ok () := by
  induction members with
  | nil => exact iff_of_true rfl fun member hmember ↦ absurd hmember List.not_mem_nil
  | cons member members ih =>
    rw [validateSecretFreeMembers, bind_eq_ok, List.forall_mem_cons, ← ih]
    exact ⟨fun ⟨_, hboth⟩ ↦ hboth, fun hboth ↦ ⟨(), hboth⟩⟩

theorem validateItems_iff {path : List String} {sensitive : Bool} {items : List Json} :
    validateSecretFreeItems methods allowed path sensitive items = .ok () ↔
      ∀ item ∈ items, validateSecretFreeValue methods allowed path sensitive item = .ok () := by
  induction items with
  | nil => exact iff_of_true rfl fun item hitem ↦ absurd hitem List.not_mem_nil
  | cons item items ih =>
    rw [validateSecretFreeItems, bind_eq_ok, List.forall_mem_cons, ← ih]
    exact ⟨fun ⟨_, hboth⟩ ↦ hboth, fun hboth ↦ ⟨(), hboth⟩⟩

/-- A value that is valid passes the check. -/
theorem check_of_validate {path : List String} {sensitive : Bool} {value : Json}
    (hvalid : validateSecretFreeValue methods allowed path sensitive value = .ok ()) :
    ∃ container, checkSecretFreeValue methods allowed path sensitive value = .ok container := by
  cases value with
  | object | array =>
    rw [validateSecretFreeValue, bind_eq_ok] at hvalid
    exact hvalid.imp fun _ ↦ And.left
  | _ =>
    unfold validateSecretFreeValue at hvalid
    exact (bind_eq_ok.mp hvalid).imp fun _ ↦ And.left

/-- What occurs in a valid value is valid at its place, and stands under a sensitive name when the
value does. -/
theorem validate_of_occurs {value inner : Json} {later : List String}
    (hoccurs : Occurs value later inner) : ∀ {path : List String} {sensitive : Bool},
    validateSecretFreeValue methods allowed path sensitive value = .ok () →
    ∃ container, (sensitive = true → container = true) ∧
      validateSecretFreeValue methods allowed (path ++ later) container inner = .ok () := by
  induction hoccurs with
  | here value =>
    intro path sensitive hvalid
    rw [List.append_nil]
    exact ⟨sensitive, id, hvalid⟩
  | @member members name child inner later hmem _ ih =>
    intro path sensitive hvalid
    rw [validateSecretFreeValue, bind_eq_ok] at hvalid
    obtain ⟨container, hcheck, hmembers⟩ := hvalid
    obtain ⟨last, hlast, hinner⟩ := ih (validateMembers_iff.mp hmembers (name, child) hmem)
    rw [List.append_assoc] at hinner
    refine ⟨last, fun hsensitive ↦ hlast ?_, hinner⟩
    rw [(check_eq_ok hcheck).1, hsensitive, Bool.true_or]
  | @item items child inner later hmem _ ih =>
    intro path sensitive hvalid
    rw [validateSecretFreeValue, bind_eq_ok] at hvalid
    obtain ⟨container, hcheck, hitems⟩ := hvalid
    obtain ⟨last, hlast, hinner⟩ := ih (validateItems_iff.mp hitems child hmem)
    refine ⟨last, fun hsensitive ↦ hlast ?_, hinner⟩
    rw [(check_eq_ok hcheck).1, hsensitive, Bool.true_or]

/-- A valid value under a sensitive name is redacted. -/
theorem redacted_of_validate {path : List String} {value : Json}
    (hvalid : validateSecretFreeValue methods allowed path true value = .ok ()) :
    Redacted value := by
  intro later scalar hoccurs
  obtain ⟨container, hcontainer, hinner⟩ := validate_of_occurs hoccurs hvalid
  obtain ⟨last, hcheck⟩ := check_of_validate hinner
  refine (check_eq_ok hcheck).2.1 ?_
  rw [(check_eq_ok hcheck).1, hcontainer rfl, Bool.true_or]

/-- At a sensitive path that is no schema, it does not matter whether the value already stands under
a sensitive name. -/
theorem validate_sensitive {path : List String} {sensitive : Bool} {value : Json}
    (hpath : isSensitivePath methods allowed path = true)
    (hmetadata : isSchemaMetadata methods allowed path value = false) :
    validateSecretFreeValue methods allowed path sensitive value =
      validateSecretFreeValue methods allowed path true value := by
  have hcheck : checkSecretFreeValue methods allowed path sensitive value =
      checkSecretFreeValue methods allowed path true value := by
    unfold checkSecretFreeValue
    simp only [hpath, hmetadata, Bool.not_false, Bool.and_true, Bool.or_true]
  cases value <;> simp only [validateSecretFreeValue, hcheck]

/-- A sensitive member of a valid value is guarded, unless the structure of an OpenAPI document has
neither an object nor a redacted value for it. -/
theorem guarded_of_validate {tree value : Json} {path : List String}
    (hvalid : validateSecretFreeValue methods allowed [] false tree = .ok ())
    (hmember : SensitiveMember tree path value)
    (hstructures : allowed = true → isOpenapiStructuralName methods path = true →
      Redacted value ∨ value.isObject = true) :
    Guarded methods allowed path value := by
  obtain ⟨parent, name, members, rfl, hparent, hmem, hname⟩ := hmember
  obtain ⟨outer, -, hobject⟩ := validate_of_occurs hparent hvalid
  rw [validateSecretFreeValue, bind_eq_ok] at hobject
  obtain ⟨sensitive, -, hmembers⟩ := hobject
  have hinner := validateMembers_iff.mp hmembers (name, value) hmem
  rw [List.nil_append] at hinner
  by_cases hexempt : (allowed && isOpenapiStructuralName methods (parent ++ [name])) = true
  · rw [Bool.and_eq_true] at hexempt
    exact (hstructures hexempt.1 hexempt.2).imp_right
      fun hvalue ↦ Or.inl ⟨hexempt.1, hexempt.2, hvalue⟩
  have hpath : isSensitivePath methods allowed (parent ++ [name]) = true := by
    rw [isSensitivePath, List.getLast?_concat, Option.any_some, hname,
      Bool.eq_false_of_not_eq_true hexempt]
    rfl
  by_cases hmetadata : isSchemaMetadata methods allowed (parent ++ [name]) value = true
  · obtain ⟨container, hcheck⟩ := check_of_validate hinner
    have hschema := (check_eq_ok hcheck).2.2 hmetadata
    rw [isSchemaMetadata, Bool.and_eq_true, Bool.and_eq_true, Bool.and_eq_true] at hmetadata
    exact Or.inr (Or.inr ⟨hmetadata.1.2, hmetadata.1.1.2, hmetadata.2,
      valueFree_of_validate value _ hschema⟩)
  · rw [validate_sensitive hpath (Bool.eq_false_of_not_eq_true hmetadata)] at hinner
    exact Or.inl (redacted_of_validate hinner)

/-- A document that is read is free of secrets exactly when what is read has every sensitive member
that is not guarded, and those in the structure of an OpenAPI document are objects or redacted. -/
theorem secretFree_iff {content value : Json} {filename : String}
    (hread : parseSecretFreeProof methods content filename = .ok value) :
    SecretFree methods (decide (filename = "mem0-openapi.json")) content ↔
      KeepsSecrets methods (decide (filename = "mem0-openapi.json")) content ∧
        StructuresGuarded methods (decide (filename = "mem0-openapi.json")) content := by
  unfold parseSecretFreeProof at hread
  obtain ⟨_, hvalid, -⟩ := bind_eq_ok.mp hread
  constructor
  · intro hfree
    refine ⟨fun path value hmember hguarded ↦ absurd (hfree path value hmember) hguarded,
      fun path value hmember hallowed hstructure ↦ ?_⟩
    rcases hfree path value hmember with hredacted | ⟨-, -, hobject⟩ | ⟨-, -, hobject, -⟩
    · exact Or.inl hredacted
    · exact Or.inr hobject
    · exact Or.inr hobject
  · rintro ⟨hkept, hstructures⟩ path value hmember
    by_contra hguarded
    exact hguarded (guarded_of_validate hvalid (hkept path value hmember hguarded)
      (hstructures path value hmember))

end Reading

/-! ### Published proofs -/

/-- Every result of a list that is read is that of one of its items. -/
theorem exists_of_mapM {ι ε α : Type} {items : List ι} {read : ι → Except ε α} {results : List α}
    (hall : items.mapM read = .ok results) {result : α} (hresult : result ∈ results) :
    ∃ item ∈ items, read item = .ok result := by
  have hmem := List.mem_map_of_mem (f := Except.ok (ε := ε)) hresult
  rw [← mapM_eq_ok.mp hall] at hmem
  exact List.mem_map.mp hmem

/-- What is published of a service is secret free but for members that reading drops, and for
scalars in the structure of an OpenAPI document. -/
theorem published_secretFree (methods : TextMethods) (readLeaf : String → Except String Json)
    (profileId : String) (proofs : List SealedProof) (content value : Json) (filename : String) :
    (sealProfileProofManifest readLeaf profileId = .ok proofs → ∀ proof ∈ proofs,
      readLeaf proof.relativePath = .ok proof.content ∧
        (Clean proof.document ↔
          (HasAuthority proof.content → HasAuthority (asDictionaries proof.content)))) ∧
      (parseSecretFreeProof methods content filename = .ok value →
        (SecretFree methods (decide (filename = "mem0-openapi.json")) content ↔
          KeepsSecrets methods (decide (filename = "mem0-openapi.json")) content ∧
            StructuresGuarded methods (decide (filename = "mem0-openapi.json")) content)) := by
  refine ⟨fun hsealed proof hproof ↦ ?_, secretFree_iff⟩
  unfold sealProfileProofManifest at hsealed
  obtain ⟨filenames, -, hfiles⟩ := bind_eq_ok.mp hsealed
  obtain ⟨filename, -, hfile⟩ := exists_of_mapM hfiles hproof
  obtain ⟨content, hcontent, hpublic⟩ := bind_eq_ok.mp hfile
  obtain ⟨document, hdocument, hresult⟩ := bind_eq_ok.mp hpublic
  cases hresult
  exact ⟨hcontent, clean_iff hdocument⟩

/-! ### Samples -/

section Sample

/-- The characters with the first letter of each word in upper case. -/
def titleChars : Bool → List Char → List Char
  | _, [] => []
  | inside, char :: rest =>
    (if inside then char.toLower else char.toUpper) :: titleChars char.isAlpha rest

def sampleMethods : TextMethods where
  isDigit text := text ≠ "" && text.toList.all Char.isDigit
  title text := String.ofList (titleChars false text.toList)

def sampleProof : Json := .object [("status", .string "ok"), ("api_key", .string redactedValue)]

/-- A profile is sealed when every file of it has one document that is sealed. -/
theorem seal_of_publicProof {content document : Json}
    (hpublic : publicProof content = .ok document) :
    sealProfileProofManifest (fun _ ↦ .ok content) "hindsight-rest-v1" = .ok
      (["hindsight-health.json", "hindsight-version.json", "hindsight-model-config.json",
        "hindsight-retry-config.json"].map fun filename ↦ ⟨filename, content, document⟩) := by
  unfold sealProfileProofManifest
  refine bind_eq_ok.mpr ⟨_, rfl, mapM_eq_ok.mpr ?_⟩
  rw [List.map_map]
  exact List.map_congr_left fun filename _ ↦
    bind_eq_ok.mpr ⟨content, rfl, bind_eq_ok.mpr ⟨document, hpublic, rfl⟩⟩

/-- A document of which nothing that is read is redacted is sealed as it is. -/
theorem publicProof_of_same (content : Json)
    (hsame : (same (redactControlAuthorities (asDictionaries content)) (asDictionaries content) &&
      !isNaN (asDictionaries content)) = true) : publicProof content = .ok content := by
  unfold publicProof
  exact if_pos hsame

theorem parse_of_validate (methods : TextMethods) (content : Json) (filename : String)
    (hvalid : validateSecretFreeValue methods (decide (filename = "mem0-openapi.json")) [] false
      (asDictionaries content) = .ok ()) :
    parseSecretFreeProof methods content filename = .ok (asDictionaries content) := by
  unfold parseSecretFreeProof
  exact bind_eq_ok.mpr ⟨(), hvalid, rfl⟩

theorem asDictionaries_sampleProof : asDictionaries sampleProof = sampleProof :=
  (same_iff _ _).mp (by decide +kernel)

theorem published_secretFree_sample :
    (∃ proofs, sealProfileProofManifest (fun _ ↦ .ok sampleProof) "hindsight-rest-v1" = .ok proofs ∧
      ∀ proof ∈ proofs, Clean proof.document) ∧
      SecretFree sampleMethods false sampleProof := by
  have hsealed := seal_of_publicProof (publicProof_of_same sampleProof (by decide +kernel))
  refine ⟨⟨_, hsealed, fun proof hproof ↦ ?_⟩, ?_⟩
  · obtain ⟨hcontent, hclean⟩ := (published_secretFree sampleMethods (fun _ ↦ .ok sampleProof)
      "hindsight-rest-v1" _ sampleProof sampleProof "hindsight-health.json").1 hsealed proof hproof
    refine hclean.mpr ?_
    rw [← Except.ok.inj hcontent, asDictionaries_sampleProof]
    exact id
  · refine ((published_secretFree sampleMethods (fun _ ↦ .ok sampleProof) "hindsight-rest-v1" []
      sampleProof _ "hindsight-health.json").2
      (parse_of_validate _ _ _ (by decide +kernel))).mpr
      ⟨fun path value hmember _ ↦ ?_, fun path value _ hallowed ↦ ?_⟩
    · rw [asDictionaries_sampleProof]
      exact hmember
    · exact absurd hallowed (by decide)

/-- A document with a private address that reading drops. -/
def sampleDropped : Json :=
  .object [("url", .string "http://10.0.0.5/"), ("url", .string "ok")]

/-- A document with a secret that reading drops. -/
def sampleRepeated : Json := .object [("password", .string "hunter2"), ("password", .null)]

/-- An OpenAPI document with a secret in the place of an operation. -/
def sampleStructure : Json := .object [("paths", .object [("password", .string "hunter2")])]

theorem published_leaks :
    (¬ ∀ (readLeaf : String → Except String Json) (profileId : String)
        (proofs : List SealedProof), sealProfileProofManifest readLeaf profileId = .ok proofs →
        ∀ proof ∈ proofs, Clean proof.document) ∧
      (¬ ∀ (methods : TextMethods) (content value : Json),
        parseSecretFreeProof methods content "hindsight-health.json" = .ok value →
        SecretFree methods false content) ∧
      ¬ ∀ (methods : TextMethods) (content : Json),
        parseSecretFreeProof methods content "mem0-openapi.json" = .ok content →
        SecretFree methods true content := by
  refine ⟨fun hall ↦ ?_, fun hall ↦ ?_, fun hall ↦ ?_⟩
  · have hsealed := seal_of_publicProof (publicProof_of_same sampleDropped (by decide +kernel))
    have hclean := hall _ _ _ hsealed _ List.mem_cons_self ["url"] "http://10.0.0.5/"
      (.member List.mem_cons_self (.here _))
    have hauthority : isControlAuthority "http://10.0.0.5/" = true := by decide +kernel
    rw [hauthority] at hclean
    cases hclean
  · have hguarded := hall sampleMethods sampleRepeated _
      (parse_of_validate _ _ _ (by decide +kernel)) ["password"] (.string "hunter2")
      ⟨[], "password", _, rfl, .here _, List.mem_cons_self, by decide +kernel⟩
    rcases hguarded with hredacted | ⟨hallowed, -⟩ | ⟨hallowed, -⟩
    · have hnone := hredacted [] _ (.here _)
      revert hnone
      decide +kernel
    · cases hallowed
    · cases hallowed
  · have hread : asDictionaries sampleStructure = sampleStructure :=
      (same_iff _ _).mp (by decide +kernel)
    have hparsed := parse_of_validate sampleMethods sampleStructure "mem0-openapi.json"
      (by decide +kernel)
    rw [hread] at hparsed
    have hguarded := hall sampleMethods sampleStructure hparsed ["paths", "password"]
      (.string "hunter2") ⟨["paths"], "password", _, rfl,
        .member List.mem_cons_self (.here _), List.mem_cons_self, by decide +kernel⟩
    rcases hguarded with hredacted | ⟨-, -, hobject⟩ | ⟨-, -, hobject, -⟩
    · have hnone := hredacted [] _ (.here _)
      revert hnone
      decide +kernel
    · cases hobject
    · cases hobject

end Sample

end Oamb.Config.ServiceProofGuarantees
