import Mathlib.Data.List.Infix
import Oamb.Foundation.JsonTrees

/-!
# Proofs of the provider services

The proofs of a service are published without its secrets. When they are sealed, every text that
names an authority or a private path is redacted; when a receipt is read, every scalar under a
sensitive name has to be redacted, except for the structure of an OpenAPI document. Both read the
objects of a document as dictionaries.

A document is given as the tree that its bytes spell, with every member of its objects.
-/

set_option autoImplicit false

namespace Oamb.Config.ServiceProofs

open Foundation Foundation.Json Foundation.JsonTrees

/-! ### Sensitive names -/

/-- The sequences of words of which a name is sensitive. -/
def sensitiveWordSequences : List (List String) :=
  [["api", "key"], ["access", "token"], ["refresh", "token"], ["client", "secret"]]

/-- The words of which a name is sensitive. -/
def sensitiveWords : List String := ["authorization", "credential", "password", "secret"]

/-- The words behind which a token is no secret. -/
def safeTokenFollowingWords : List String :=
  ["budget", "budgets", "count", "counts", "limit", "limits", "type", "usage", "usages"]

def isWordCharacter (char : Char) : Bool := char.isAlphanum

/-- Two characters with the next one are the boundary of words in camel case. -/
def isCamelWordBoundary (previous current : Char) (next : Option Char) : Bool :=
  (previous.isLower || previous.isDigit) && current.isUpper ||
    previous.isUpper && current.isUpper && next.any Char.isLower

/-- The characters with an underscore at every boundary of words. -/
def separateCamelWords : List Char → List Char
  | previous :: current :: rest =>
    if isCamelWordBoundary previous current rest.head? then
      previous :: '_' :: separateCamelWords (current :: rest)
    else previous :: separateCamelWords (current :: rest)
  | chars => chars

/-- The characters with one underscore for every run of others than letters and digits. -/
def joinNonWords : Bool → List Char → List Char
  | _, [] => []
  | inside, char :: rest =>
    if isWordCharacter char then char :: joinNonWords false rest
    else if inside then joinNonWords true rest
    else '_' :: joinNonWords true rest

/-- The characters without underscores at their ends. -/
def stripUnderscores (chars : List Char) : List Char :=
  ((chars.dropWhile (· = '_')).reverse.dropWhile (· = '_')).reverse

def normalizedConfigurationKey (key : String) : List Char :=
  (stripUnderscores (joinNonWords false (separateCamelWords key.toList))).map Char.toLower

/-- The words of a name. -/
def keyWords (key : String) : List String :=
  (((normalizedConfigurationKey key).splitOn '_').filter (· ≠ [])).map String.ofList

/-- A token stands among the words, and not as a count or a limit of tokens. -/
def hasToken : List String → Bool
  | [] => false
  | word :: words =>
    decide (word = "token" ∧ ∀ next ∈ words.head?, next ∉ safeTokenFollowingWords) || hasToken words

def isSensitiveKey (key : String) : Bool :=
  let words := keyWords key
  words.any (· ∈ sensitiveWords) ||
    (sensitiveWordSequences.any fun sequence ↦ decide (sequence <:+: words)) || hasToken words

/-! ### Sealing -/

/-- The paths of private files. -/
def privatePathPrefixes : List String := ["/Users/", "/home/", "/private/var/", "C:\\Users\\"]

def redactedValue : String := "[redacted]"

/-- The text names an authority or a private path. -/
def isControlAuthority (text : String) : Bool :=
  decide ("://".toList <:+: text.toList) ||
    ("localhost:" :: "127.0.0.1:" :: privatePathPrefixes).any fun start ↦
      decide (start.toList <+: text.toList)

mutual

def redactControlAuthorities : Json → Json
  | .object members => .object (redactMembers members)
  | .array items => .array (redactItems items)
  | .string text => .string (if isControlAuthority text then redactedValue else text)
  | value => value

/-- The items redacted. -/
def redactItems : List Json → List Json
  | [] => []
  | item :: items => redactControlAuthorities item :: redactItems items

/-- The values of the members redacted. -/
def redactMembers : List (String × Json) → List (String × Json)
  | [] => []
  | (name, value) :: members => (name, redactControlAuthorities value) :: redactMembers members

end

mutual

/-- A number of the value is not finite. -/
def hasNonFinite : Json → Bool
  | .real finite _ => !finite
  | .array items => hasNonFiniteItem items
  | .object members => hasNonFiniteMember members
  | _ => false

/-- A number of the items is not finite. -/
def hasNonFiniteItem : List Json → Bool
  | [] => false
  | item :: items => hasNonFinite item || hasNonFiniteItem items

/-- A number of the members is not finite. -/
def hasNonFiniteMember : List (String × Json) → Bool
  | [] => false
  | (_, value) :: members => hasNonFinite value || hasNonFiniteMember members

end

/-- The document of a canonical writing. -/
def canonicalJson (value : Json) : Except String Json :=
  if hasNonFinite value then .error "Out of range float values are not JSON compliant"
  else .ok (JsonText.sorted value)

/-- The value is a number that does not equal itself. -/
def isNaN : Json → Bool
  | .real finite text => !finite && decide (text = "NaN")
  | _ => false

/-- The document that is sealed for a document: itself, when nothing of what is read is redacted. -/
def publicProof (content : Json) : Except String Json :=
  let document := asDictionaries content
  let redacted := redactControlAuthorities document
  if same redacted document && !isNaN document then .ok content else canonicalJson redacted

/-- The proofs of each profile. -/
def profileProofFiles : List (String × List String) :=
  [("hindsight-rest-v1",
      ["hindsight-health.json", "hindsight-version.json", "hindsight-model-config.json",
        "hindsight-retry-config.json"]),
    ("mem0-rest-v1",
      ["mem0-openapi.json", "mem0-empty-projection.json", "mem0-config-redacted.json",
        "mem0-retry-config.json"]),
    ("openviking-rest-v1",
      ["openviking-health.json", "openviking-auth-identity.json", "openviking-storage.json",
        "openviking-model-config.json", "openviking-retry-config.json"])]

/-- The files of the proofs of a profile. -/
def profileFilenames (profileId : String) : Except String (List String) :=
  match profileProofFiles.lookup profileId with
  | some filenames => .ok filenames
  | none => .error s!"unknown provider profile: {profileId}"

/-- A sealed proof, and the document of the file that it is sealed for. -/
structure SealedProof where
  relativePath : String
  content : Json
  document : Json

/-- Seal the proofs of a profile that are read from its directory. -/
def sealProfileProofManifest (readLeaf : String → Except String Json) (profileId : String) :
    Except String (List SealedProof) := do
  let filenames ← profileFilenames profileId
  filenames.mapM fun filename ↦ do
    let content ← readLeaf filename
    let document ← publicProof content
    pure ⟨filename, content, document⟩

/-! ### Reading -/

/-- What a validator needs of the texts: whether all their characters are digits, and their title
case. -/
structure TextMethods where
  isDigit : String → Bool
  title : String → String

/-- The fields of a sensitive OpenAPI schema. -/
def openapiSensitiveSchemaKeys : List String :=
  ["$ref", "allOf", "anyOf", "deprecated", "format", "items", "nullable", "oneOf", "readOnly",
    "title", "type", "writeOnly"]

def openapiJsonTypes : List String :=
  ["array", "boolean", "integer", "null", "number", "object", "string"]

def openapiSafeFormats : List String :=
  ["binary", "byte", "date", "date-time", "email", "hostname", "ipv4", "ipv6", "password", "uuid"]

/-- The text is a reference to a schema of its own document. -/
def isLocalSchemaReference (text : String) : Bool :=
  let start := "#/components/schemas/".toList
  let name := text.toList.drop start.length
  decide (start <+: text.toList) && !name.isEmpty &&
    name.all fun char ↦ char.isAlphanum || char ∈ ['.', '_', '-']

/-- The path leads to a property of a schema. -/
def isOpenapiSchemaProperty : List String → Bool
  | "components" :: "schemas" :: _ :: "properties" :: _ :: _ => true
  | _ => false

/-- The path leads to a name of the structure of a document. -/
def isOpenapiStructuralName (methods : TextMethods) (path : List String) : Bool :=
  (match path with
    | ["paths", _] => true
    | ["components", group, _] => group ∈ ["schemas", "securitySchemes"]
    | _ => false) ||
  match path.reverse with
  | _ :: index :: "security" :: _ => methods.isDigit index
  | _ => false

/-- The value is one of the texts. An object or an array cannot be looked up. -/
def isOneOf (texts : List String) : Json → Except String Bool
  | .object _ => .error "unhashable type: 'dict'"
  | .array _ => .error "unhashable type: 'list'"
  | .string text => .ok (decide (text ∈ texts))
  | _ => .ok false

/-- Every item is one of the texts. -/
def allOneOf (texts : List String) (message : String) : List Json → Except String Unit
  | [] => .ok ()
  | item :: items => do
    let known ← isOneOf texts item
    if known then allOneOf texts message items else .error message

/-- The title of a schema is that of its property. -/
def isExpectedTitle (methods : TextMethods) (propertyName : Option String) (value : Json) : Bool :=
  match propertyName.filter (· ≠ "") with
  | none => value.isNull
  | some name => value.isText (methods.title (name.replace "_" " "))

/-- The items of an array, and any other value alone. -/
def listedValues : Json → List Json
  | .array items => items
  | value => [value]

/-- The value is a boolean. -/
def isFlag : Json → Bool
  | .bool _ => true
  | _ => false

/-- The field of a schema that states no schemas of its own. -/
def validatePlainField (methods : TextMethods) (propertyName : Option String) (field : String)
    (value : Json) : Except String Unit :=
  if field = "type" then
    if listedValues value = [] then .error "provider proof contains unsafe OpenAPI type"
    else
      allOneOf openapiJsonTypes "provider proof contains unsafe OpenAPI type" (listedValues value)
  else if field = "format" then
    allOneOf openapiSafeFormats "provider proof contains unsafe OpenAPI format" [value]
  else if field = "$ref" then
    if value.asText.any isLocalSchemaReference then .ok ()
    else .error "provider proof contains unsafe OpenAPI reference"
  else if field = "title" then
    if isExpectedTitle methods propertyName value then .ok ()
    else .error "provider proof contains unsafe OpenAPI title"
  else if isFlag value then .ok ()
  else .error "provider proof contains unsafe OpenAPI flag"

/-- The fields of a schema that state no schemas of their own. -/
def plainFields : List String :=
  ["type", "format", "$ref", "title", "deprecated", "nullable", "readOnly", "writeOnly"]

mutual

def validateSensitiveOpenapiSchema (methods : TextMethods) (propertyName : Option String) :
    Json → Except String Unit
  | .object members =>
    if members.all fun member ↦ member.1 ∈ openapiSensitiveSchemaKeys then
      validateSchemaFields methods propertyName members
    else .error "provider proof contains value-bearing sensitive OpenAPI metadata"
  | _ => .error "provider proof contains unsafe OpenAPI items"

/-- The fields of a schema, one after the other. -/
def validateSchemaFields (methods : TextMethods) (propertyName : Option String) :
    List (String × Json) → Except String Unit
  | [] => .ok ()
  | (field, value) :: fields =>
    (if field ∈ plainFields then validatePlainField methods propertyName field value
      else if field = "items" then validateSensitiveOpenapiSchema methods none value
      else validateSchemaVariants methods value) >>= fun _ ↦
      validateSchemaFields methods propertyName fields

/-- The schemas of a field that lists them. -/
def validateSchemaVariants (methods : TextMethods) : Json → Except String Unit
  | .array variants =>
    if variants.isEmpty then .error "provider proof contains unsafe OpenAPI variants"
    else validateVariants methods variants
  | _ => .error "provider proof contains unsafe OpenAPI variants"

/-- The listed schemas, one after the other. -/
def validateVariants (methods : TextMethods) : List Json → Except String Unit
  | [] => .ok ()
  | variant :: variants =>
    (if variant.isObject then validateSensitiveOpenapiSchema methods none variant
      else .error "provider proof contains unsafe OpenAPI variants") >>= fun _ ↦
      validateVariants methods variants

end

/-- A scalar that is neither nothing nor redacted. -/
def isUnredacted (value : Json) : Bool :=
  isScalar value && !value.isNull && !value.isText redactedValue

section Validation

variable (methods : TextMethods) (allowOpenapiSchemaMetadata : Bool)

/-- The last name of the path is sensitive, and not the name of a structure. -/
def isSensitivePath (path : List String) : Bool :=
  path.getLast?.any isSensitiveKey &&
    !(allowOpenapiSchemaMetadata && isOpenapiStructuralName methods path)

/-- The value is the schema of a property with a sensitive name. -/
def isSchemaMetadata (path : List String) (value : Json) : Bool :=
  isSensitivePath methods allowOpenapiSchemaMetadata path && isOpenapiSchemaProperty path &&
    allowOpenapiSchemaMetadata && value.isObject

/-- Check a value but not what it contains; the result is whether it stands under a sensitive
name. -/
def checkSecretFreeValue (path : List String) (sensitiveContainer : Bool) (value : Json) :
    Except String Bool := do
  let schemaMetadata := isSchemaMetadata methods allowOpenapiSchemaMetadata path value
  if schemaMetadata then validateSensitiveOpenapiSchema methods path.getLast? value
  let container := sensitiveContainer ||
    isSensitivePath methods allowOpenapiSchemaMetadata path && !schemaMetadata
  if container && isUnredacted value then .error "provider proof contains an unredacted secret"
  pure container

mutual

def validateSecretFreeValue (path : List String) (sensitiveContainer : Bool) :
    Json → Except String Unit
  | .object members => do
    let container ← checkSecretFreeValue methods allowOpenapiSchemaMetadata path
      sensitiveContainer (.object members)
    validateSecretFreeMembers path container members
  | .array items => do
    let container ← checkSecretFreeValue methods allowOpenapiSchemaMetadata path
      sensitiveContainer (.array items)
    validateSecretFreeItems path container items
  | value => do
    let _ ← checkSecretFreeValue methods allowOpenapiSchemaMetadata path sensitiveContainer value
    pure ()

/-- The items of an array. Their path is that of the array. -/
def validateSecretFreeItems (path : List String) (sensitiveContainer : Bool) :
    List Json → Except String Unit
  | [] => .ok ()
  | item :: items => do
    validateSecretFreeValue path sensitiveContainer item
    validateSecretFreeItems path sensitiveContainer items

/-- The members of an object. -/
def validateSecretFreeMembers (path : List String) (sensitiveContainer : Bool) :
    List (String × Json) → Except String Unit
  | [] => .ok ()
  | (name, value) :: members => do
    validateSecretFreeValue (path ++ [name]) sensitiveContainer value
    validateSecretFreeMembers path sensitiveContainer members

end

end Validation

/-- Read a proof, which has to be free of secrets. -/
def parseSecretFreeProof (methods : TextMethods) (content : Json) (filename : String) :
    Except String Json := do
  let value := asDictionaries content
  validateSecretFreeValue methods (decide (filename = "mem0-openapi.json")) [] false value
  pure value

end Oamb.Config.ServiceProofs
