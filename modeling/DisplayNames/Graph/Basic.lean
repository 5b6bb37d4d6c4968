import DisplayNames.Symbol
import DisplayNames.Table

/-!
# Symbol graphs

A graph holds the symbols of a program by identity and knows the root namespace, which no name
shows.  Everything about the surroundings of a symbol is read off one list, the chain of the symbol
and the symbols around it.

## Main definitions

* `DisplayNames.Graph` — the symbols.
* `DisplayNames.Graph.chain` — a symbol and the symbols around it, innermost first.
* `DisplayNames.Graph.qualifiedName` — the dotted path of a declaration.
* `DisplayNames.Graph.levels` — an aggregate and the aggregates around it.
* `DisplayNames.Graph.thisInst?` — an aggregate instantiated over its own parameters.
* `DisplayNames.Graph.typeVarsAll` — the type parameters of all levels.
* `DisplayNames.Graph.signatureBogus` — a method mentions a declaration that could not be loaded.
-/

set_option relaxedAutoImplicit false
set_option autoImplicit false

namespace DisplayNames

/-- The symbols of a program. -/
structure Graph where
  root : SymId
  symbols : Table SymId Symbol

namespace Graph

/-- The symbol with an identity. -/
def find? (g : Graph) (id : SymId) : Option Symbol := Table.get? g.symbols id

/-- The number of symbols. -/
def size (g : Graph) : Nat := g.symbols.length

/-- Enters a symbol. -/
def insert (g : Graph) (id : SymId) (s : Symbol) : Graph :=
  { g with symbols := Table.insert g.symbols id s }

/-- Changes a symbol; an unknown identity changes nothing. -/
def modify (g : Graph) (id : SymId) (f : Symbol → Symbol) : Graph :=
  { g with symbols := g.symbols.map fun (i, s) => (i, if i = id then f s else s) }

/-! ## The surroundings of a symbol -/

/-- A symbol and the symbols around it, innermost first, at most `bound` of them. -/
def chainUpTo (g : Graph) : (bound : Nat) → SymId → List (SymId × Symbol)
  | 0, _ => []
  | bound + 1, id =>
    match g.find? id with
    | none => []
    | some s =>
      (id, s) :: (match s.parent with | none => [] | some parent => g.chainUpTo bound parent)

/-- A symbol and the symbols around it, innermost first.  No chain without repetition is longer
than the graph. -/
def chain (g : Graph) (id : SymId) : List (SymId × Symbol) := g.chainUpTo g.size id

/-- The dotted path of a declaration, from the outside in.  A namespace that nothing encloses
contributes nothing; a symbol without a name contributes an empty part. -/
def qualifiedName (g : Graph) (id : SymId) : String :=
  let inside := (g.chain id).takeWhile fun (_, s) => !s.isTopNamespace
  ".".intercalate (inside.map fun (_, s) => s.name.getD "").reverse

/-- The kind of the symbol is that of an aggregate. -/
def isAggregate (g : Graph) (id : SymId) : Bool :=
  ((g.find? id).bind Symbol.aggregate?).isSome

/-- The aggregates at the front of a chain. -/
def leadingAggregates : List (SymId × Symbol) → List (SymId × Aggregate)
  | [] => []
  | (id, s) :: rest =>
    match s.aggregate? with
    | none => []
    | some a => (id, a) :: leadingAggregates rest

/-- An aggregate and the aggregates directly around it, innermost first. -/
def levels (g : Graph) (id : SymId) : List (SymId × Aggregate) := leadingAggregates (g.chain id)

/-- The aggregate directly around a symbol. -/
def outerAggregate? (g : Graph) (id : SymId) : Option SymId :=
  ((g.find? id).bind Symbol.parent).filter g.isAggregate

/-- Every level instantiated over the parameters it introduces. -/
def instOfLevels : List (SymId × Aggregate) → Option Inst
  | [] => none
  | (id, a) :: outer => some (.mk id a.typeVars (instOfLevels outer))

/-- An aggregate instantiated over its own type parameters. -/
def thisInst? (g : Graph) (id : SymId) : Option Inst := instOfLevels (g.levels id)

/-- The type parameters of an aggregate and of those around it, outermost first. -/
def typeVarsAll (g : Graph) (id : SymId) : List Ty :=
  (g.levels id).reverse.flatMap fun (_, a) => a.typeVars

/-- An instantiation of an aggregate.  A nested aggregate for which no enclosing instantiation is
given is taken inside the enclosing one over its own parameters. -/
def instantiate (g : Graph) (id : SymId) (args : List Ty) (outer : Option Inst) : Inst :=
  .mk id args (outer.or ((g.outerAggregate? id).bind g.thisInst?))

/-! ## Broken references -/

/-- An aggregate that could not be loaded. -/
def isBroken (g : Graph) (id : SymId) : Bool :=
  (((g.find? id).bind Symbol.aggregate?).map Aggregate.broken).getD false

/-- The result or a parameter of a method mentions an aggregate that could not be loaded. -/
def signatureBogus (g : Graph) (id : SymId) : Bool :=
  match (g.find? id).bind Symbol.method? with
  | none => false
  | some m =>
    (m.returns.map (Ty.isBogus g.isBroken)).getD false || m.params.any (Ty.isBogus g.isBroken)

end Graph

end DisplayNames
