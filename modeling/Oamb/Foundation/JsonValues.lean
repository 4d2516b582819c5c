import Oamb.Foundation.FileSystem

/-!
# JSON values

A JSON value as a parser finds it: the members of an object stand in their order, and a name may stand
more than once. A reader of a member finds the last of that name, and `null` where there is none.
-/

set_option autoImplicit false

namespace Oamb.Foundation

/-- A JSON value. A number that is not an integer is kept as its text, and may be no finite one. -/
inductive Json
  | null
  | bool (value : Bool)
  | integer (value : ℤ)
  | real (finite : Bool) (text : String)
  | string (value : String)
  | array (items : List Json)
  | object (members : List (String × Json))

namespace Json

/-- The member of a name. -/
def lookup (members : List (String × Json)) (name : String) : Option Json :=
  (members.reverse.find? fun member ↦ member.1 = name).map Prod.snd

/-- The member of a name of an object, or `null`. -/
def get : Json → String → Json
  | object members, name => (lookup members name).getD null
  | _, _ => null

/-- The names of an object. -/
def names : Json → List String
  | object members => members.map Prod.fst
  | _ => []

/-- The value is an object. -/
def isObject : Json → Bool
  | object _ => true
  | _ => false

/-- The value is an array. -/
def isArray : Json → Bool
  | array _ => true
  | _ => false

/-- The value is `null`. -/
def isNull : Json → Bool
  | null => true
  | _ => false

/-- The value is `true`. -/
def isTrue : Json → Bool
  | bool value => value
  | _ => false

/-- The text of a string. -/
def asText : Json → Option String
  | string value => some value
  | _ => none

/-- The text of a string that is not empty. -/
def asNonEmptyText (value : Json) : Option String := value.asText.filter fun text ↦ text ≠ ""

/-- The value of an integer. -/
def asInteger : Json → Option ℤ
  | integer value => some value
  | _ => none

/-- The value is this text. -/
def isText (value : Json) (text : String) : Bool := value.asText = some text

mutual

/-- No object has a name twice, and every number is finite. -/
def exact : Json → Bool
  | object members => decide (members.map Prod.fst).Nodup && exactMembers members
  | array items => exactItems items
  | real finite _ => finite
  | null | bool _ | integer _ | string _ => true

/-- The values of the members are exact. -/
def exactMembers : List (String × Json) → Bool
  | [] => true
  | (_, value) :: rest => value.exact && exactMembers rest

/-- The items are exact. -/
def exactItems : List Json → Bool
  | [] => true
  | value :: rest => value.exact && exactItems rest

end

/-- The names of an object are those of a set. -/
def hasNames (document : Json) (expected : List String) : Bool :=
  document.isObject && document.names.all (· ∈ expected) && expected.all (· ∈ document.names)

end Json

end Oamb.Foundation
