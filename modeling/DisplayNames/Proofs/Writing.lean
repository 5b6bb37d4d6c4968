import DisplayNames.Render.Renderer

/-!
# Writing display names

The other way to render: straight into the session of a renderer.  Every text is appended when the
walk comes to it, a phrase is looked up in the catalog on the spot, the state of a signature is
asked for and remembered in the middle of the walk, and an error breaks off whatever is being
written.  Nothing is known of pieces here, and any part of the walk could look at the catalog, at
what was written so far or at the memo.

## Main definitions

* `DisplayNames.Writing` — work on a renderer.
* `DisplayNames.Writing.base`, `DisplayNames.Writing.inst` — types and instantiations.
* `DisplayNames.Writing.symbolUpTo` — a symbol, with a bound on the walk.
* `DisplayNames.Writing.subject` — whatever can be rendered.
* `DisplayNames.Renderer.renderDirectly` — one call: the session is opened, written to and closed,
  or given up.
-/

set_option relaxedAutoImplicit false
set_option autoImplicit false

namespace DisplayNames

/-- Work on a renderer.  It can change what outlives a call, and it can break off; what was changed
until then stays changed. -/
abbrev Writing := ExceptT Fault (StateM Renderer)

namespace Writing

/-- What the work comes to on a renderer, and what the renderer has become. -/
def on {α : Type} (work : Writing α) (r : Renderer) : Except Fault α × Renderer :=
  StateT.run (ExceptT.run work) r

/-! ## Single steps -/

/-- Appends a text to the session. -/
def append (text : String) : Writing Unit := do
  let r ← get
  match r.session.append text with
  | .ok session => set { r with session }
  | .error error => throw (.broken error)

/-- Breaks off at a broken invariant. -/
def fail (error : RenderError) : Writing Unit := throw (.broken error)

/-- Does something only if a condition holds. -/
def when (condition : Bool) (work : Writing Unit) : Writing Unit :=
  if condition then work else pure ()

/-- Appends a declared name. -/
def name (name : Option String) : Writing Unit :=
  append (if name = some indexerName then "this" else name.getD "")

/-- A type parameter: its name, or a mark and its index. -/
def typeParam (name : Option String) (index : Ordinal) (ofMethod : Bool) : Writing Unit :=
  match name with
  | none => do
    append (if ofMethod then "!!" else "!")
    append index.text
  | some name => Writing.name (some name)

/-! ## Lists and brackets -/

/-- Something in angle brackets, unless the list that it is about is empty. -/
def angled {α : Type} (items : List α) (inside : Writing Unit) : Writing Unit :=
  when (!items.isEmpty) do
    append "<"
    inside
    append ">"

/-- Several things with a separator in front of all but the first. -/
def separated {α : Type} (separator : String) (write : α → Writing Unit) :
    List α → Writing Unit
  | [] => pure ()
  | a :: rest => do
    write a
    rest.forM fun a => do
      append separator
      write a

/-- One pair of brackets. -/
def bracket (rank : Int) (vector : Bool) : Writing Unit := do
  append "["
  when (rank = 1 && !vector) (append "*")
  when (rank ≠ 1) (append (String.ofList (List.replicate (rank - 1).toNat ',')))
  append "]"

/-- The brackets of all layers of an array, outermost first. -/
def brackets : Ty → Writing Unit
  | .array element rank vector => do
    bracket rank.value vector
    brackets element
  | _ => pure ()

/-- The types of parameters; a collecting parameter at the end is marked. -/
def paramTypes (type : Ty → Writing Unit) (paramArray : Bool) : List Ty → Writing Unit
  | [] => pure ()
  | t :: rest => do
    when (paramArray && rest.isEmpty) (append "params ")
    type t
    when (!rest.isEmpty) (append ", ")
    paramTypes type paramArray rest

/-- The parameters between the brackets of a signature. -/
def paramList (type : Ty → Writing Unit) (params : List Ty) (varargs paramArray : Bool) :
    Writing Unit := do
  paramTypes type paramArray params
  when varargs do
    when (!params.isEmpty) (append ", ")
    append "..."

section

variable (g : Graph) (display : Display)

/-- Appends a canned phrase, as the catalog has it. -/
def phrase (id : MessageId) : Writing Unit := append (display.catalog id)

/-- The state of a signature, which is remembered. -/
def check (id : SymId) : Writing Bool := modifyGet fun r => r.checkSignature g id

/-! ## Types -/

/-- An unresolved type: its name and arguments behind its parent, or a phrase if it has no parent.
With a parent it needs a name and arguments, without one it must not have arguments. -/
def errorType (qualifier : Option (Writing Unit)) (text : Option String)
    (args : Option (Writing Unit)) : Writing Unit :=
  match qualifier, text, args with
  | some qualifier, some text, some args => do
    qualifier
    name (some text)
    args
  | some _, _, _ => fail .errorTypeIncomplete
  | none, _, none => phrase display .errorSymbol
  | none, _, some _ => fail .errorTypeArguments

section

variable (around : Option SymId → Writing Unit)

mutual

/-- A type without the brackets of its own array layers. -/
def base : Ty → Writing Unit
  | .aggregate i => inst i
  | .param index ofMethod name => typeParam name index ofMethod
  | .array element _ _ => base element
  | .pointer referent => do
    base referent
    brackets referent
    append "*"
  | .nullable underlying => do
    base underlying
    brackets underlying
    append "?"
  | .byRef target out => do
    append (if out then "out " else "ref ")
    base target
    brackets target
  | .error parent space text ts =>
    errorType display
      (match parent with
        | some parent => some do
          base parent
          brackets parent
          append "."
        | none => space.map fun space => around (some space))
      text
      (match ts with
        | none => none
        | some ts => some (angled ts (args ts)))
  | .null => phrase display .null
  | .void => phrase display .void
  | .boundLambda => phrase display .anonymousMethod
  | .unboundLambda => phrase display .lambda
  | .methodGroup => phrase display .methodGroup
  | .argumentList => phrase display .argumentList
  | .placeholder => pure ()
  | .unknown _ => fail .badTypeKind

/-- An instantiation. -/
def inst : Inst → Writing Unit
  | .mk decl ts outer =>
    match display.niceNames.find? g decl with
    | some nice => append nice
    | none =>
      let symbol := g.find? decl
      match outer with
      | some outer => do
        inst outer
        append "."
        name (symbol.bind Symbol.name)
        angled ts (args ts)
      | none => do
        around (symbol.bind Symbol.parent)
        name (symbol.bind Symbol.name)
        angled ts (args ts)

/-- Type arguments, separated by commas. -/
def args : List Ty → Writing Unit
  | [] => pure ()
  | t :: rest => do
    base t
    brackets t
    when (!rest.isEmpty) (append ",")
    args rest

end

/-- A type. -/
def type (t : Ty) : Writing Unit := do
  base g display around t
  brackets t

end

/-! ## Symbols -/

/-- The symbols around a symbol without a context, with a point behind them. -/
def around (symbol : SymId → Writing Unit) : Option SymId → Writing Unit
  | none => pure ()
  | some parent =>
    when (parent ≠ g.root) do
      symbol parent
      append "."

/-- The enclosing symbol as a context instantiates it, with a point behind it. -/
def enclosing (symbol : SymId → Writing Unit) (ctx : Option Context) :
    Option SymId → Writing Unit
  | none => pure ()
  | some parent =>
    let shown := ctx.filter fun ctx => !ctx.isNop && !(g.typeVarsAll parent).isEmpty
    when (parent ≠ g.root) do
      match shown.bind fun ctx => (g.thisInst? parent).map (Inst.subst (some ctx)) with
      | some i =>
        inst g display (around g symbol) i
        append "."
      | none =>
        symbol parent
        append "."

/-- What stands for a slot that is known not to resolve. -/
def unresolved (type : Ty → Writing Unit) (impl : ExplicitImpl) : Writing Unit :=
  match impl.unresolved with
  | some t => type t
  | none => pure ()

/-- The own name of a method that is neither an accessor nor a resolved explicit implementation. -/
def methodName (type : Ty → Writing Unit) (s : Symbol) (m : Method) : Writing Unit := do
  let className : Writing Unit :=
    match (s.parent.bind g.find?).filter (·.kind == .aggregate) with
    | some parent => name parent.name
    | none => fail (.methodOutsideAggregate s.name)
  if m.constructor then className
  else if m.destructor then
    append "~"
    className
  else if m.conversion then
    match m.returns with
    | none => fail (.conversionWithoutResult s.name)
    | some result =>
      append (if m.implicit then "implicit" else "explicit")
      append " operator "
      type result
  else if m.operator then
    append "operator "
    match Operator.displayOfMethod? s.name with
    | some symbol => append symbol
    | none => fail (.unknownOperator s.name)
  else if m.impl.declared then unresolved type m.impl
  else name s.name

/-- The arguments of a method in round brackets.  Whether they are shown is asked for behind the
opening one. -/
def methodArguments (type : Ty → Writing Unit) (id : SymId) (m : Method) : Writing Unit := do
  append "("
  let bogus ← check g id
  when (!bogus) (paramList type m.params m.varargs m.paramArray)
  append ")"

/-- An indexer with its parameters. -/
def indexer (type : Ty → Writing Unit) (p : Property) : Writing Unit := do
  append "this["
  paramList type p.params false p.paramArray
  append "]"

/-- What is behind the last point of a property without a resolved slot. -/
def propertyName (type : Ty → Writing Unit) (s : Symbol) (p : Property) : Writing Unit := do
  if p.impl.declared then
    unresolved type p.impl
    when p.indexer do
      append "."
      indexer type p
  else if p.indexer then indexer type p
  else name s.name

/-- The role of an accessor of a property. -/
def propertyRole (id : SymId) (accessor : Option String) (owner : SymId) : Writing Unit :=
  let symbol := g.find? owner
  let property := (symbol.bind Symbol.property?).getD {}
  if property.getter = some id then append ".get"
  else if property.setter = some id then append ".set"
  else fail (.detachedPropertyAccessor accessor (symbol.bind Symbol.name))

/-- The role of an accessor of an event. -/
def eventRole (id : SymId) (accessor : Option String) (owner : SymId) : Writing Unit :=
  let symbol := g.find? owner
  let event := (symbol.bind Symbol.event?).getD {}
  if event.adder = some id then append ".add"
  else if event.remover = some id then append ".remove"
  else fail (.detachedEventAccessor accessor (symbol.bind Symbol.name))

/-- A symbol under a context, on a walk of at most `bound` symbols. -/
def symbolUpTo : (bound : Nat) → SymId → Option Context → Bool → Writing Unit
  | 0, _, _, _ => throw .endless
  | bound + 1, id, ctx, args => do
    let plain := fun parent => symbolUpTo bound parent none true
    let type := fun t => type g display (around g plain) (t.subst ctx)
    match g.find? id with
    | none => fail (.badSymbolKind none)
    | some s =>
      match s.detail with
      | .aggregate a =>
        match display.niceNames.find? g id with
        | some nice => append nice
        | none =>
          enclosing g display plain ctx s.parent
          name s.name
          angled a.typeVars (separated "," type a.typeVars)
      | .method m =>
        match m.impl.target?, m.property, m.event with
        | some (member, on), _, _ =>
          enclosing g display plain ctx s.parent
          symbolUpTo bound member (some (slotContext on ctx)) args
        | none, some owner, _ =>
          symbolUpTo bound owner ctx true
          propertyRole g id s.name owner
        | none, none, some owner =>
          symbolUpTo bound owner ctx true
          eventRole g id s.name owner
        | none, none, none =>
          enclosing g display plain ctx s.parent
          methodName g type s m
          angled m.typeVars (separated "," type m.typeVars)
          when args (methodArguments g type id m)
      | .property p =>
        enclosing g display plain ctx s.parent
        match p.impl.target? with
        | some (member, on) => symbolUpTo bound member (some (slotContext on ctx)) true
        | none => propertyName type s p
      | .event _ => pure ()
      | .space =>
        if id = g.root then phrase display .globalNamespace
        else
          around g plain s.parent
          name s.name
      | .field =>
        enclosing g display plain ctx s.parent
        name s.name
      | .typeParameter t => typeParam s.name t.index t.ofMethod
      | .localVariable => name s.name
      | .scope => fail (.badSymbolKind (some .scope))

/-- A symbol under a context, on a walk of any depth up to the bound of the graph. -/
def symbol (id : SymId) (ctx : Option Context) (args : Bool) : Writing Unit :=
  symbolUpTo g display (2 * g.size + 1000) id ctx args

/-- Whatever can be rendered. -/
def subject : Subject → Writing Unit
  | .symbol none _ _ => fail (.badSymbolKind none)
  | .symbol (some id) ctx args => symbol g display id ctx args
  | .type t ctx =>
    type g display (around g fun parent => symbol g display parent none true) (t.subst ctx)

end

end Writing

/-- Renders a subject by writing it.  The session is opened for it and closed afterwards; whatever
breaks off in between drops what was written, but not what was remembered. -/
def Renderer.renderDirectly (r : Renderer) (g : Graph) (display : Display) (subject : Subject) :
    Except Fault String × Renderer :=
  match r.session.begin with
  | .error error => (.error (.broken error), r)
  | .ok session =>
    match (Writing.subject g display subject).on { r with session } with
    | (.error fault, r) => (.error fault, { r with session := r.session.discard })
    | (.ok (), r) =>
      match r.session.finish with
      | .error error => (.error (.broken error), { r with session := r.session.discard })
      | .ok (text, session) => (.ok text, { r with session })

end DisplayNames
