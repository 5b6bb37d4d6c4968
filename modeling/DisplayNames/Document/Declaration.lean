import DisplayNames.Document.Error
import DisplayNames.Graph.Declare

/-!
# The declarations of a document

Declarations are nested JSON objects.  A walk over them lists what they declare, in document order:
each declared symbol with its path, its explicit id, the keys that are generated along with it, and
the part of its signature that can only be resolved once all declarations are known.

The walk keeps no state.  It stops at the first malformed declaration and remembers why.

## Main definitions

* `DisplayNames.Document.Place` — where a declaration stands.
* `DisplayNames.Document.Declared` — what one declaration contributes.
* `DisplayNames.Document.Listing` — the contributions of a walk, with `++`.
* `DisplayNames.Document.header` — one declaration without its members.
* `DisplayNames.Document.declare`, `DisplayNames.Document.declareAll` — the walk.
-/

set_option relaxedAutoImplicit false
set_option autoImplicit false

namespace DisplayNames

namespace Document

/-- Type parameters in scope by name, the nearest one first. -/
abbrev Scope := List (String × Ty)

/-- Parameters enter a scope in front; of two with one name the later one is nearer. -/
def Scope.enter (scope : Scope) (names : List String) (params : List Ty) : Scope :=
  (names.zip params).reverse ++ scope

/-- What encloses a declaration. -/
inductive Surroundings where
  | space
  /-- An aggregate, with the number of type parameters of all its levels. -/
  | aggregate (params : Nat)
  deriving DecidableEq, Repr

/-- Where a declaration stands. -/
structure Place where
  id : SymId
  surroundings : Surroundings
  /-- The path of the enclosing symbol, empty for the root. -/
  path : String
  scope : Scope

/-- The place of top-level declarations. -/
def Place.top : Place := ⟨.root, .space, "", []⟩

/-- The path of a member. -/
def joinPath (path name : String) : String := if path = "" then name else path ++ "." ++ name

/-- The part of a declaration that is resolved later: its fields and the scope they stand in. -/
structure Pending where
  fields : List (String × Json)
  scope : Scope

/-- A symbol that comes along with a declared one, under a key of its own. -/
structure Generated where
  path : String
  id : SymId
  symbol : Symbol

/-- What one declaration contributes. -/
structure Declared where
  id : SymId
  symbol : Symbol
  path : String
  explicitId : Option String
  generated : List Generated
  pending : Option Pending

/-- The contributions of a walk in document order, and why it stopped early. -/
structure Listing where
  declared : List Declared
  stop : Option DocumentError

namespace Listing

/-- A walk over nothing. -/
def empty : Listing := ⟨[], none⟩

/-- A walk that stops at once. -/
def stopped (error : DocumentError) : Listing := ⟨[], some error⟩

/-- One walk after another, unless the first one stopped. -/
def append (a b : Listing) : Listing :=
  match a.stop with
  | some _ => a
  | none => ⟨a.declared ++ b.declared, b.stop⟩

instance : Append Listing := ⟨append⟩

end Listing

/-! ## Single declarations -/

/-- The words for the kinds of aggregates. -/
def aggregateKind? : String → Option AggregateKind
  | "class" => some .classType
  | "struct" => some .structType
  | "interface" => some .interfaceType
  | "enum" => some .enumType
  | _ => none

/-- The name that a method gets from its role. -/
def roleName? (fields : List (String × Json)) : Option String :=
  if Json.flag fields "constructor" false then some ".ctor"
  else if Json.flag fields "destructor" false then some "Finalize"
  else
    match Table.get? fields "conversion" with
    | none | some .null => none
    | some (.str "implicit") => some "op_Implicit"
    | some _ => some "op_Explicit"

/-- The name of a method: the written one or, if none is written, that of its role. -/
def methodName? (fields : List (String × Json)) : Option String :=
  match Table.get? fields "name" with
  | none => roleName? fields
  | some (.str name) => some name
  | some _ => none

/-- The name under which a declaration counts among its siblings. -/
def memberName : Json → String
  | .obj fields => (methodName? fields).getD ""
  | _ => ""

/-- The texts in the list under a key. -/
def stringsField (fields : List (String × Json)) (key : String) :
    Except DocumentError (List String) := do
  (← Json.listField fields key).mapM (Json.asString key)

/-- The explicit id of a declaration; null is none. -/
def explicitId? (fields : List (String × Json)) : Except DocumentError (Option String) :=
  match Table.get? fields "id" with
  | none | some .null => .ok none
  | some id => (id.asString "id").map some

/-- A namespace and the place of its members. -/
def namespaceHeader (place : Place) (copy : Nat) (fields : List (String × Json)) :
    Except DocumentError (Declared × Option Place) := do
  if place.surroundings ≠ .space then throw .namespaceInType
  let name ← Json.stringField fields "name"
  let id := place.id.child (.member name copy)
  let path := joinPath place.path name
  let explicitId ← explicitId? fields
  return (⟨id, ⟨some name, some place.id, .space⟩, path, explicitId, [], none⟩,
    some { place with id, path })

/-- The symbols of the type parameters of an aggregate, each under a key below its path. -/
def typeParameterSymbols (id : SymId) (path : String) (first : Nat) (names : List String) :
    List Generated :=
  names.mapIdx fun i name =>
    ⟨joinPath path name, id.child (.typeParameter i),
      ⟨some name, some id, .typeParameter ⟨.number (first + i : Nat), false⟩⟩⟩

/-- An aggregate and the place of its members.  Its parameters are numbered behind those of the
enclosing aggregates. -/
def aggregateHeader (place : Place) (copy : Nat) (kind : AggregateKind)
    (fields : List (String × Json)) : Except DocumentError (Declared × Option Place) := do
  let name ← Json.stringField fields "name"
  let first := match place.surroundings with
    | .space => 0
    | .aggregate params => params
  let names ← stringsField fields "type_params"
  let typeVars := typeParams first false (names.map some)
  let id := place.id.child (.member name copy)
  let path := joinPath place.path name
  let broken := Json.flag fields "bogus" false
  let explicitId ← explicitId? fields
  return (⟨id, ⟨some name, some place.id, .aggregate ⟨kind, typeVars, broken⟩⟩, path, explicitId,
      typeParameterSymbols id path first names, none⟩,
    some ⟨id, .aggregate (first + names.length), path, place.scope.enter names typeVars⟩)

/-- A method; its parameters and result are resolved later. -/
def methodHeader (place : Place) (copy : Nat) (fields : List (String × Json)) :
    Except DocumentError (Declared × Option Place) := do
  let conversion ← match Table.get? fields "conversion" with
    | none | some .null => pure none
    | some (.str "implicit") => pure (some true)
    | some (.str "explicit") => pure (some false)
    | some value => throw (.badConversion value)
  let some name := methodName? fields | throw (.methodWithoutName fields)
  let names ← stringsField fields "type_params"
  let typeVars := typeParams 0 true (names.map some)
  let explicitId ← explicitId? fields
  let constructor := Json.flag fields "constructor" false
  let method : Method :=
    { typeVars
      constructor
      destructor := Json.flag fields "destructor" false
      conversion := conversion.isSome
      implicit := conversion = some true
      operator := Json.flag fields "operator" conversion.isSome
      varargs := Json.flag fields "varargs" false
      paramArray := Json.flag fields "param_array" false }
  return (⟨place.id.child (.member name copy), ⟨some name, some place.id, .method method⟩,
    joinPath place.path name, explicitId, [], some ⟨fields, place.scope.enter names typeVars⟩⟩,
    none)

/-- An accessor of a property or event. -/
def accessor (role : AccessorRole) (place : Place) (owner : SymId) (path name : String)
    (details : Method) : Generated :=
  ⟨joinPath path role.word, owner.child (.accessor role),
    ⟨some (role.word ++ "_" ++ name), some place.id, .method details⟩⟩

/-- A property with its accessors; its parameters are resolved later. -/
def propertyHeader (place : Place) (copy : Nat) (fields : List (String × Json)) :
    Except DocumentError (Declared × Option Place) := do
  let name ← Json.stringField fields "name"
  let id := place.id.child (.member name copy)
  let path := joinPath place.path name
  let explicitId ← explicitId? fields
  let roles := [AccessorRole.get, .set].filter fun role =>
    Json.flag fields (if role = .get then "getter" else "setter") false
  let accessorId (role : AccessorRole) : Option SymId :=
    if roles.contains role then some (id.child (.accessor role)) else none
  let property : Property :=
    { indexer := Json.flag fields "indexer" false
      paramArray := Json.flag fields "param_array" false
      getter := accessorId .get
      setter := accessorId .set }
  return (⟨id, ⟨some name, some place.id, .property property⟩, path, explicitId,
    roles.map fun role => accessor role place id path name { property := some id },
    some ⟨fields, place.scope⟩⟩, none)

/-- A field. -/
def fieldHeader (place : Place) (copy : Nat) (fields : List (String × Json)) :
    Except DocumentError (Declared × Option Place) := do
  let name ← Json.stringField fields "name"
  let explicitId ← explicitId? fields
  return (⟨place.id.child (.member name copy), ⟨some name, some place.id, .field⟩,
    joinPath place.path name, explicitId, [], none⟩, none)

/-- An event with its accessors, which it has unless they are turned off. -/
def eventHeader (place : Place) (copy : Nat) (fields : List (String × Json)) :
    Except DocumentError (Declared × Option Place) := do
  let name ← Json.stringField fields "name"
  let id := place.id.child (.member name copy)
  let path := joinPath place.path name
  let explicitId ← explicitId? fields
  let roles := if Json.flag fields "accessors" true then [AccessorRole.add, .remove] else []
  let accessorId (role : AccessorRole) : Option SymId :=
    if roles.contains role then some (id.child (.accessor role)) else none
  return (⟨id, ⟨some name, some place.id, .event ⟨accessorId .add, accessorId .remove⟩⟩, path,
    explicitId, roles.map fun role => accessor role place id path name { event := some id },
    none⟩, none)

/-- The kinds of members, which only aggregates have. -/
def memberHeader? : String →
    Option (Place → Nat → List (String × Json) → Except DocumentError (Declared × Option Place))
  | "method" => some methodHeader
  | "property" => some propertyHeader
  | "field" => some fieldHeader
  | "event" => some eventHeader
  | _ => none

/-- One declaration without its members, and the place of its members if it can have any. -/
def header (place : Place) (copy : Nat) (fields : List (String × Json)) :
    Except DocumentError (Declared × Option Place) :=
  match Json.fieldD fields "kind" .null with
  | .str kind =>
    if kind = "namespace" then namespaceHeader place copy fields
    else
      match aggregateKind? kind, memberHeader? kind with
      | some kind, _ => aggregateHeader place copy kind fields
      | none, some header =>
        if place.surroundings = .space then
          .error (.memberOutsideType kind (Json.fieldD fields "name" .null))
        else header place copy fields
      | none, none => .error (.unknownKind kind)
  | value => .error (.kindNotString value)

/-! ## The walk -/

mutual

/-- A declaration and its members, behind `copy` siblings of the same name. -/
def declare (place : Place) (copy : Nat) : Json → Listing
  | .obj fields =>
    match header place copy fields with
    | .error error => .stopped error
    | .ok (declared, none) => ⟨[declared], none⟩
    | .ok (declared, some inside) => ⟨[declared], none⟩ ++ declareMembers inside fields
  | value => .stopped (.declarationNotObject value)

/-- The members among the fields of a declaration. -/
def declareMembers (place : Place) : List (String × Json) → Listing
  | [] => .empty
  | (key, value) :: rest =>
    if key = "members" then
      match value with
      | .arr members => declareAll place [] members
      | _ => .stopped (.notList "members")
    else declareMembers place rest

/-- Several declarations of one place, behind siblings of those names. -/
def declareAll (place : Place) (before : List String) : List Json → Listing
  | [] => .empty
  | declaration :: rest =>
    declare place (before.count (memberName declaration)) declaration
      ++ declareAll place (memberName declaration :: before) rest

end

end Document

end DisplayNames
