import DisplayNames.Ty.Basic

/-!
# Symbols

The declarations that a diagnostic can name.  A symbol has a name, which synthetic declarations may
lack, and the symbol that encloses it; the rest depends on what it is.

Methods and properties may implement a member of an interface explicitly.  Such a member either
carries the *slot* it implements, seen on an instantiation of the interface, or a stand-in for a
slot that did not resolve.

## Main definitions

* `DisplayNames.SymbolKind`, `DisplayNames.AggregateKind` — the kinds.
* `DisplayNames.ExplicitImpl` — the explicit implementation of an interface member.
* `DisplayNames.Detail` — what a symbol has besides name and parent.
* `DisplayNames.Symbol` — a declaration.
-/

set_option relaxedAutoImplicit false
set_option autoImplicit false

namespace DisplayNames

/-- The name under which indexers are declared; it is displayed as `this`. -/
def indexerName : String := "$Item$"

/-- The kinds of symbols.  All but scopes have a display name. -/
inductive SymbolKind where
  /-- A namespace. -/
  | space
  | aggregate
  | method
  | property
  | field
  | event
  | typeParameter
  | localVariable
  | scope
  deriving DecidableEq, Repr

/-- The word for a kind. -/
def SymbolKind.word : SymbolKind → String
  | .space => "NAMESPACE"
  | .aggregate => "AGGREGATE"
  | .method => "METHOD"
  | .property => "PROPERTY"
  | .field => "FIELD"
  | .event => "EVENT"
  | .typeParameter => "TYPE_PARAMETER"
  | .localVariable => "LOCAL_VARIABLE"
  | .scope => "SCOPE"

/-- All kinds. -/
def SymbolKind.all : List SymbolKind :=
  [.space, .aggregate, .method, .property, .field, .event, .typeParameter, .localVariable,
    .scope]

/-- The kinds of aggregates. -/
inductive AggregateKind where
  | classType
  | structType
  | interfaceType
  | enumType
  deriving DecidableEq, Repr

/-- The word for a kind of aggregate. -/
def AggregateKind.word : AggregateKind → String
  | .classType => "CLASS"
  | .structType => "STRUCT"
  | .interfaceType => "INTERFACE"
  | .enumType => "ENUM"

/-- All kinds of aggregates. -/
def AggregateKind.all : List AggregateKind := [.classType, .structType, .interfaceType, .enumType]

/-- An interface member as seen on an instantiation of its interface. -/
structure Slot where
  member : Option SymId
  on : Option Inst

/-- How a method or property implements an interface member explicitly. -/
structure ExplicitImpl where
  /-- The member is an explicit implementation at all. -/
  declared : Bool := false
  slot : Option Slot := none
  /-- A stand-in that names a slot which did not resolve. -/
  unresolved : Option Ty := none

namespace ExplicitImpl

/-- A member that implements nothing explicitly. -/
def absent : ExplicitImpl := {}

/-- The resolved slot: the interface member and the instantiation it is seen on. -/
def target? (impl : ExplicitImpl) : Option (SymId × Option Inst) :=
  if impl.declared then
    impl.slot.bind fun slot => slot.member.map fun member => (member, slot.on)
  else none

end ExplicitImpl

/-- The details of an aggregate. -/
structure Aggregate where
  kind : AggregateKind := .classType
  /-- The type parameters that this declaration introduces. -/
  typeVars : List Ty := []
  /-- The declaration comes from a reference that could not be loaded. -/
  broken : Bool := false

/-- The details of a method. -/
structure Method where
  params : List Ty := []
  returns : Option Ty := none
  typeVars : List Ty := []
  constructor : Bool := false
  destructor : Bool := false
  /-- A conversion operator, implicit or explicit. -/
  conversion : Bool := false
  implicit : Bool := false
  operator : Bool := false
  varargs : Bool := false
  /-- The last parameter collects the remaining arguments. -/
  paramArray : Bool := false
  impl : ExplicitImpl := {}
  /-- The property that the method is an accessor of. -/
  property : Option SymId := none
  /-- The event that the method is an accessor of. -/
  event : Option SymId := none

/-- The details of a property; an indexer has parameters. -/
structure Property where
  indexer : Bool := false
  params : List Ty := []
  paramArray : Bool := false
  impl : ExplicitImpl := {}
  getter : Option SymId := none
  setter : Option SymId := none

/-- The details of an event. -/
structure Event where
  adder : Option SymId := none
  remover : Option SymId := none

/-- The details of a type parameter. -/
structure TypeParameter where
  index : Ordinal := .number 0
  ofMethod : Bool := false

/-- What a symbol has besides its name and its parent. -/
inductive Detail where
  /-- A namespace. -/
  | space
  | aggregate (details : Aggregate)
  | method (details : Method)
  | property (details : Property)
  | field
  | event (details : Event)
  | typeParameter (details : TypeParameter)
  | localVariable
  | scope

/-- The kind of a symbol. -/
def Detail.kind : Detail → SymbolKind
  | .space => .space
  | .aggregate _ => .aggregate
  | .method _ => .method
  | .property _ => .property
  | .field => .field
  | .event _ => .event
  | .typeParameter _ => .typeParameter
  | .localVariable => .localVariable
  | .scope => .scope

/-- A symbol of a kind without further details. -/
def Detail.ofKind : SymbolKind → Detail
  | .space => .space
  | .aggregate => .aggregate {}
  | .method => .method {}
  | .property => .property {}
  | .field => .field
  | .event => .event {}
  | .typeParameter => .typeParameter {}
  | .localVariable => .localVariable
  | .scope => .scope

/-- A declaration. -/
structure Symbol where
  name : Option String
  parent : Option SymId
  detail : Detail

namespace Symbol

/-- The kind of a symbol. -/
def kind (s : Symbol) : SymbolKind := s.detail.kind

/-- The details of an aggregate. -/
def aggregate? (s : Symbol) : Option Aggregate :=
  match s.detail with
  | .aggregate details => some details
  | _ => none

/-- The details of a method. -/
def method? (s : Symbol) : Option Method :=
  match s.detail with
  | .method details => some details
  | _ => none

/-- The details of a property. -/
def property? (s : Symbol) : Option Property :=
  match s.detail with
  | .property details => some details
  | _ => none

/-- The details of an event. -/
def event? (s : Symbol) : Option Event :=
  match s.detail with
  | .event details => some details
  | _ => none

/-- A namespace that nothing encloses. -/
def isTopNamespace (s : Symbol) : Bool := s.kind == .space && s.parent.isNone

end Symbol

end DisplayNames
