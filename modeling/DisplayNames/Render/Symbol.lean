import DisplayNames.Operator
import DisplayNames.Render.Type
import DisplayNames.Ty.Subst

/-!
# Display names of symbols

A symbol is displayed behind the symbols around it.  Under a context an enclosing generic type is
displayed as the context instantiates it, and so are the types in the signature; the context is
applied once to each type and never to its own output.

The name, type parameters and signature of an explicit implementation are those of the interface
member, seen on the interface as the context instantiates it.  An accessor is displayed as its
property or event with the role behind it.

The walk from a symbol goes to its parent, to its slot and to its owner, and to the declarations of
the types on its way.  Its depth is bounded by a counter; a walk that is deeper does not end.

## Main definitions

* `DisplayNames.Scene.symbolUpTo` — a symbol, with a bound on the walk.
* `DisplayNames.Scene.symbol` — a symbol.
* `DisplayNames.Scene.type` — a type.
-/

set_option relaxedAutoImplicit false
set_option autoImplicit false

namespace DisplayNames

/-- The context in which the member of a slot is displayed: the arguments of the interface as the
given context instantiates it. -/
def slotContext (on : Option Inst) (ctx : Option Context) : Context :=
  .ofInst (on.map (Inst.subst ctx)) []

namespace Scene

variable (scene : Scene)

/-- The symbols around a symbol without a context, with a point behind them.  The root is not
displayed. -/
def around (symbol : SymId → Rendering) : Option SymId → Rendering
  | none => .empty
  | some parent =>
    if parent = scene.graph.root then .empty else symbol parent >> .literal "."

/-- The enclosing symbol as a context instantiates it, with a point behind it. -/
def enclosing (symbol : SymId → Rendering) (ctx : Option Context) :
    Option SymId → Rendering
  | none => .empty
  | some parent =>
    if parent = scene.graph.root then .empty
    else
      let shown := ctx.filter fun ctx => !ctx.isNop && !(scene.graph.typeVarsAll parent).isEmpty
      match shown.bind fun ctx => (scene.graph.thisInst? parent).map (Inst.subst (some ctx)) with
      | some inst => renderInst scene (scene.around symbol) inst >> .literal "."
      | none => symbol parent >> .literal "."

/-- The own name of a method that is neither an accessor nor a resolved explicit implementation. -/
def methodName (type : Ty → Rendering) (s : Symbol) (m : Method) : Rendering :=
  let className : Rendering :=
    match (s.parent.bind scene.graph.find?).filter (·.kind == .aggregate) with
    | some parent => nameText parent.name
    | none => .fail (.methodOutsideAggregate s.name)
  if m.constructor then className
  else if m.destructor then .literal "~" >> className
  else if m.conversion then
    match m.returns with
    | none => .fail (.conversionWithoutResult s.name)
    | some result =>
      .literal (if m.implicit then "implicit" else "explicit") >> .literal " operator "
        >> type result
  else if m.operator then
    .literal "operator " >>
      match Operator.displayOfMethod? s.name with
      | some symbol => .literal symbol
      | none => .fail (.unknownOperator s.name)
  else if m.impl.declared then (m.impl.unresolved.map type).getD .empty
  else nameText s.name

/-- The arguments of a method in round brackets.  They are left out if the signature mentions a
declaration that could not be loaded. -/
def methodArguments (type : Ty → Rendering) (id : SymId) (m : Method) : Rendering :=
  .literal "(" >> .examine id
    >> (if scene.bogus id then .empty else paramList type m.params m.varargs m.paramArray)
    >> .literal ")"

/-- An indexer with its parameters. -/
def indexerText (type : Ty → Rendering) (p : Property) : Rendering :=
  .literal "this[" >> paramList type p.params false p.paramArray >> .literal "]"

/-- What is behind the last point of a property without a resolved slot. -/
def propertyName (type : Ty → Rendering) (s : Symbol) (p : Property) : Rendering :=
  if p.impl.declared then
    (p.impl.unresolved.map type).getD .empty
      >> if p.indexer then .literal "." >> indexerText type p else .empty
  else if p.indexer then indexerText type p
  else nameText s.name

/-- The role of an accessor of a property. -/
def propertyRole (id : SymId) (accessor : Option String) (owner : SymId) : Rendering :=
  let symbol := scene.graph.find? owner
  let property := (symbol.bind Symbol.property?).getD {}
  if property.getter = some id then .literal ".get"
  else if property.setter = some id then .literal ".set"
  else .fail (.detachedPropertyAccessor accessor (symbol.bind Symbol.name))

/-- The role of an accessor of an event. -/
def eventRole (id : SymId) (accessor : Option String) (owner : SymId) : Rendering :=
  let symbol := scene.graph.find? owner
  let event := (symbol.bind Symbol.event?).getD {}
  if event.adder = some id then .literal ".add"
  else if event.remover = some id then .literal ".remove"
  else .fail (.detachedEventAccessor accessor (symbol.bind Symbol.name))

/-- A symbol under a context, on a walk of at most `bound` symbols.  The flag asks for the
arguments of a method. -/
def symbolUpTo : (bound : Nat) → SymId → Option Context → Bool → Rendering
  | 0, _, _, _ => .stopped .endless
  | bound + 1, id, ctx, args =>
    let plain := fun parent => symbolUpTo bound parent none true
    let type := fun t => renderTy scene (scene.around plain) (t.subst ctx)
    match scene.graph.find? id with
    | none => .fail (.badSymbolKind none)
    | some s =>
      match s.detail with
      | .aggregate a =>
        match scene.niceName? id with
        | some nice => .literal nice
        | none =>
          scene.enclosing plain ctx s.parent >> nameText s.name
            >> angled a.typeVars fun _ => .separated "," type a.typeVars
      | .method m =>
        match m.impl.target?, m.property, m.event with
        | some (member, on), _, _ =>
          scene.enclosing plain ctx s.parent
            >> symbolUpTo bound member (some (slotContext on ctx)) args
        | none, some owner, _ =>
          symbolUpTo bound owner ctx true >> scene.propertyRole id s.name owner
        | none, none, some owner =>
          symbolUpTo bound owner ctx true >> scene.eventRole id s.name owner
        | none, none, none =>
          scene.enclosing plain ctx s.parent >> scene.methodName type s m
            >> (angled m.typeVars fun _ => .separated "," type m.typeVars)
            >> if args then scene.methodArguments type id m else .empty
      | .property p =>
        scene.enclosing plain ctx s.parent >>
          match p.impl.target? with
          | some (member, on) => symbolUpTo bound member (some (slotContext on ctx)) true
          | none => propertyName type s p
      | .event _ => .empty
      | .space =>
        if id = scene.graph.root then .phrase .globalNamespace
        else scene.around plain s.parent >> nameText s.name
      | .field => scene.enclosing plain ctx s.parent >> nameText s.name
      | .typeParameter t => typeParamText s.name t.index t.ofMethod
      | .localVariable => nameText s.name
      | .scope => .fail (.badSymbolKind (some .scope))

/-- The deepest walk that is followed.  In a document a walk goes through slots and owners and then
outwards, so that its depth is less than twice the number of symbols.  In a graph that is built by
hand the context of a slot may lead back to a symbol that is being displayed already; the rest is
for such walks.

The bound comes from the graph alone.  A walk over deep types or long chains is followed to its end;
what a machine allows for the depth of calls is not part of it. -/
def walkBound : Nat := 2 * scene.graph.size + 1000

/-- A symbol under a context. -/
def symbol (id : SymId) (ctx : Option Context) (args : Bool) : Rendering :=
  scene.symbolUpTo scene.walkBound id ctx args

/-- A type under a context. -/
def type (t : Ty) (ctx : Option Context) : Rendering :=
  renderTy scene (scene.around fun parent => scene.symbol parent none true) (t.subst ctx)

end Scene

end DisplayNames
