import DisplayNames.Graph.Basic

/-!
# Building graphs by hand

Declares symbols one at a time, as an analyzer does: every declaration is entered below its parent
under the first free place, and type parameters are numbered behind those of the enclosing types.

## Main definitions

* `DisplayNames.Graph.declare` — one symbol.
* `DisplayNames.Graph.declareNamespaces` — a chain of namespaces.
* `DisplayNames.Graph.declareAggregate`, `DisplayNames.Graph.declareMethod` — with parameters.
* `DisplayNames.Predefined` — a root with the predefined types.
-/

set_option relaxedAutoImplicit false
set_option autoImplicit false

namespace DisplayNames

/-- The parameters of a list of names, numbered from `first`. -/
def typeParams (first : Nat) (ofMethod : Bool) (names : List (Option String)) : List Ty :=
  names.mapIdx fun i name => .param (.number (first + i : Nat)) ofMethod name

namespace Graph

/-- The empty graph: a root namespace without a name. -/
def empty : Graph := ⟨.root, [(.root, ⟨none, none, .space⟩)]⟩

/-- The first free place for a member of that name. -/
def freePlace (g : Graph) (parent : Option SymId) (name : Option String) : SymId :=
  let above := parent.getD .root
  let taken := g.symbols.filter fun (id, _) =>
    match id.steps with
    | .member label _ :: rest => label = name.getD "" && rest = above.steps
    | _ => false
  above.child (.member (name.getD "") taken.length)

/-- Enters a symbol at the first free place below its parent. -/
def declare (g : Graph) (s : Symbol) : Graph × SymId :=
  let id := g.freePlace s.parent s.name
  (g.insert id s, id)

/-- Declares a chain of namespaces, one for each part of a dotted name, and gives the innermost. -/
def declareNamespaces (g : Graph) (parent : Option SymId) (dotted : String) : Graph × SymId :=
  let (g, innermost) := (dotted.splitOn ".").foldl
    (fun (g, above) part =>
      let (g, id) := g.declare ⟨some part, above, .space⟩
      (g, some id))
    (g, parent)
  (g, innermost.getD g.root)

/-- Declares an aggregate with type parameters of those names. -/
def declareAggregate (g : Graph) (parent : Option SymId) (name : Option String)
    (params : List (Option String)) (kind : AggregateKind) (broken : Bool) : Graph × SymId :=
  let first := ((parent.filter g.isAggregate).map fun p => (g.typeVarsAll p).length).getD 0
  g.declare ⟨name, parent, .aggregate ⟨kind, typeParams first false params, broken⟩⟩

/-- Declares a method with type parameters of those names. -/
def declareMethod (g : Graph) (parent : Option SymId) (name : Option String)
    (params : List (Option String)) (details : Method) : Graph × SymId :=
  g.declare ⟨name, parent, .method { details with typeVars := typeParams 0 true params }⟩

end Graph

/-- A graph with the namespace `System` and the predefined types in it. -/
structure Predefined where
  graph : Graph
  system : SymId
  int32 : SymId
  string : SymId
  object : SymId
  boolean : SymId

/-- The predefined types under a fresh root. -/
def Predefined.make : Predefined :=
  let (g, system) := Graph.empty.declareNamespaces (some .root) "System"
  let (g, int32) := g.declareAggregate (some system) (some "Int32") [] .structType false
  let (g, string) := g.declareAggregate (some system) (some "String") [] .classType false
  let (g, object) := g.declareAggregate (some system) (some "Object") [] .classType false
  let (g, boolean) := g.declareAggregate (some system) (some "Boolean") [] .structType false
  ⟨g, system, int32, string, object, boolean⟩

end DisplayNames
