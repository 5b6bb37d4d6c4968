import DisplayNames.Json.Literal

/-!
# What can be wrong with a graph document

Each defect of a document is a cause of its own, together with the values that its message shows;
the wording is in one place.

## Main definitions

* `DisplayNames.DocumentError` — the defects.
* `DisplayNames.DocumentError.message` — their wording.
* `DisplayNames.Json.asList`, `DisplayNames.Json.asString`, `DisplayNames.Json.stringField` — the
  shapes that most fields must have.
-/

set_option relaxedAutoImplicit false
set_option autoImplicit false

namespace DisplayNames

/-- The defects of a document. -/
inductive DocumentError where
  | notObject
  /-- A field that must hold a list. -/
  | notList (field : String)
  /-- A field that must hold a text, or a list of texts. -/
  | notString (field : String) (value : Json)
  | missing (field : String) (fields : List (String × Json))
  | declarationNotObject (value : Json)
  | kindNotString (value : Json)
  | unknownKind (kind : String)
  | namespaceInType
  | memberOutsideType (kind : String) (name : Json)
  | badConversion (value : Json)
  | methodWithoutName (fields : List (String × Json))
  | duplicateId (id : String)
  | slotNotObject
  | slotTypeNotAggregate
  | unknownSymbol (path : String)
  | unknownType (name : String)
  | typeShape (value : Json)
  | unrecognizedType (fields : List (String × Json))
  | notType (path : String)
  | outerNotAggregate
  | badRank (value : Json)
  | badIndex (value : Json)
  | notNamespace (path : String)
  | unknownSpecial (name : String)
  | requestNotObject (position : Nat)
  | onNotAggregate
  | requestWithoutSubject
  /-- The file could not be read.  Why, is for the system to say and is not kept. -/
  | unreadable (path : String)
  /-- The file is not JSON.  Where and why reading stopped is not kept. -/
  | notJson (path : String)

/-- The wording of a defect.  For a file that could not be read or is not JSON it ends in front of
the colon and the explanation that the system or the reader of JSON gives in its own words; these
are no part of a defect. -/
def DocumentError.message : DocumentError → String
  | .notObject => "graph document must be a JSON object"
  | .notList field => "'" ++ field ++ "' must be a list"
  | .notString field value => "'" ++ field ++ "' entries must be strings, got " ++ value.literal
  | .missing field fields => "missing '" ++ field ++ "' in " ++ (Json.obj fields).literal
  | .declarationNotObject value => "declaration must be an object, got " ++ value.literal
  | .kindNotString value => "declaration kind must be a string, got " ++ value.literal
  | .unknownKind kind => "unknown declaration kind: " ++ Text.quoted kind
  | .namespaceInType => "namespaces may only nest in namespaces"
  | .memberOutsideType kind name => kind ++ " " ++ name.literal ++ " must be declared inside a type"
  | .badConversion value => "conversion must be 'implicit' or 'explicit', got " ++ value.literal
  | .methodWithoutName fields => "method declaration needs a name: " ++ (Json.obj fields).literal
  | .duplicateId id => "duplicate id: " ++ Text.quoted id
  | .slotNotObject => "explicit_impl must be an object with 'member' and 'type'"
  | .slotTypeNotAggregate => "explicit_impl type must be an interface type"
  | .unknownSymbol path => "unknown symbol: " ++ Text.quoted path
  | .unknownType name => "unknown type name: " ++ Text.quoted name
  | .typeShape value => "type must be a name or an object, got " ++ value.literal
  | .unrecognizedType fields => "unrecognized type object: " ++ (Json.obj fields).literal
  | .notType path => Text.quoted path ++ " is not a type"
  | .outerNotAggregate => "'outer' must be an aggregate type"
  | .badRank value => "array rank must be a positive integer, got " ++ value.literal
  | .badIndex value =>
    "type parameter index must be a non-negative integer, got " ++ value.literal
  | .notNamespace path => Text.quoted path ++ " is not a namespace"
  | .unknownSpecial name => "unknown special type: " ++ Text.quoted name
  | .requestNotObject position => "render entry " ++ toString position ++ " must be an object"
  | .onNotAggregate => "'on' must be an aggregate type"
  | .requestWithoutSubject => "render entry needs 'symbol' or 'type'"
  | .unreadable path => "cannot read " ++ path
  | .notJson path => path ++ " is not valid JSON"

namespace Json

/-- A field that must hold a list. -/
def asList (field : String) : Json → Except DocumentError (List Json)
  | .arr items => .ok items
  | _ => .error (.notList field)

/-- A field that must hold a text. -/
def asString (field : String) : Json → Except DocumentError String
  | .str text => .ok text
  | value => .error (.notString field value)

/-- The list under a key; an absent one is empty. -/
def listField (fields : List (String × Json)) (key : String) : Except DocumentError (List Json) :=
  match Table.get? fields key with
  | none => .ok []
  | some value => value.asList key

/-- The text under a key that must be present. -/
def stringField (fields : List (String × Json)) (key : String) : Except DocumentError String :=
  match Table.get? fields key with
  | none => .error (.missing key fields)
  | some value => value.asString key

end Json

end DisplayNames
