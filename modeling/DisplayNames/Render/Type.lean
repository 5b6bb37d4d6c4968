import DisplayNames.NiceName
import DisplayNames.Render.Rendering

/-!
# Display names of types

A type is displayed as it would be written, with qualified names: suffixes for pointers and
nullables, brackets for arrays, `ref` and `out` in front of by-reference parameters.  The brackets
of an array of arrays come outermost first behind the innermost element type.

A declaration with a nice name is displayed by it alone.  Any other instantiation is qualified by
the enclosing instantiation or, without one, by the symbols around its declaration; how these are
displayed is a parameter of this module.

## Main definitions

* `DisplayNames.Scene` — what rendering reads.
* `DisplayNames.nameText` — a declared name.
* `DisplayNames.brackets` — the brackets of all layers of an array.
* `DisplayNames.paramList` — the parameters of a signature.
* `DisplayNames.renderTy`, `DisplayNames.renderInst` — types and instantiations.

## Main results

* `DisplayNames.renderArgs_eq_separated` — type arguments are rendered one by one.
-/

set_option relaxedAutoImplicit false
set_option autoImplicit false

namespace DisplayNames

/-- What rendering reads: the graph, the nice names, and which methods have a bogus signature. -/
structure Scene where
  graph : Graph
  niceNames : NiceNames
  bogus : SymId → Bool

/-- The nice name of a symbol. -/
def Scene.niceName? (scene : Scene) (id : SymId) : Option String :=
  scene.niceNames.find? scene.graph id

/-- A declared name.  Indexers are called `this`, and an absent name is an empty piece. -/
def nameText (name : Option String) : Rendering :=
  .literal (if name = some indexerName then "this" else name.getD "")

/-- A type parameter: its name or, without one, its index behind one mark for a type's parameter
and two for a method's. -/
def typeParamText (name : Option String) (index : Ordinal) (ofMethod : Bool) : Rendering :=
  match name with
  | none => .literal (if ofMethod then "!!" else "!") >> .literal index.text
  | some name => nameText (some name)

/-- What stands in angle brackets for a list of type arguments or parameters; an empty one has no
brackets. -/
def angled {α : Type} (items : List α) (inside : Unit → Rendering) : Rendering :=
  if items.isEmpty then .empty else .literal "<" >> inside () >> .literal ">"

/-- One pair of brackets: a comma less than dimensions, or a star for the one-dimensional shape
that is not a vector.  Any number of dimensions has its commas; what a machine allows for the length
of a text is not part of it. -/
def bracket (rank : Int) (vector : Bool) : Rendering :=
  let inside : Rendering :=
    if rank = 1 then (if vector then .empty else .literal "*")
    else .literal (String.ofList (List.replicate (rank - 1).toNat ','))
  .literal "[" >> inside >> .literal "]"

/-- The brackets of all layers of an array, outermost first. -/
def brackets : Ty → Rendering
  | .array element rank vector => bracket rank.value vector >> brackets element
  | _ => .empty

/-- The types of parameters; the last one is marked if it collects the remaining arguments. -/
def paramTypes (type : Ty → Rendering) (paramArray : Bool) : List Ty → Rendering
  | [] => .empty
  | [t] => if paramArray then .literal "params " >> type t else type t
  | t :: next :: rest => type t >> .literal ", " >> paramTypes type paramArray (next :: rest)

/-- The parameters between the brackets of a signature. -/
def paramList (type : Ty → Rendering) (params : List Ty) (varargs paramArray : Bool) : Rendering :=
  let dots : Rendering := if params.isEmpty then .literal "..." else .literal ", " >> .literal "..."
  paramTypes type paramArray params >> if varargs then dots else .empty

/-- An unresolved type: its name and arguments behind its parent, or a phrase if it has no parent.
With a parent it needs a name and arguments, without one it must not have arguments. -/
def errorText (qualifier : Option (Unit → Rendering)) (name : Option String)
    (args : Option (Unit → Rendering)) : Rendering :=
  match qualifier, name, args with
  | some qualifier, some name, some args => qualifier () >> nameText (some name) >> args ()
  | some _, _, _ => .fail .errorTypeIncomplete
  | none, _, none => .phrase .errorSymbol
  | none, _, some _ => .fail .errorTypeArguments

section

variable (scene : Scene) (around : Option SymId → Rendering)

mutual

/-- A type without the brackets of its own array layers. -/
def renderBase : Ty → Rendering
  | .aggregate inst => renderInst inst
  | .param index ofMethod name => typeParamText name index ofMethod
  | .array element _ _ => renderBase element
  | .pointer referent => renderBase referent >> brackets referent >> .literal "*"
  | .nullable underlying => renderBase underlying >> brackets underlying >> .literal "?"
  | .byRef target out =>
    .literal (if out then "out " else "ref ") >> renderBase target >> brackets target
  | .error parent space name args =>
    errorText
      (match parent with
        | some parent => some fun _ => renderBase parent >> brackets parent >> .literal "."
        | none => space.map fun space _ => around (some space))
      name
      (match args with
        | none => none
        | some args => some fun _ => angled args fun _ => renderArgs args)
  | .null => .phrase .null
  | .void => .phrase .void
  | .boundLambda => .phrase .anonymousMethod
  | .unboundLambda => .phrase .lambda
  | .methodGroup => .phrase .methodGroup
  | .argumentList => .phrase .argumentList
  | .placeholder => .empty
  | .unknown _ => .fail .badTypeKind

/-- An instantiation. -/
def renderInst : Inst → Rendering
  | .mk decl args outer =>
    match scene.niceName? decl with
    | some nice => .literal nice
    | none =>
      let symbol := scene.graph.find? decl
      (match outer with
        | some outer => renderInst outer >> .literal "."
        | none => around (symbol.bind Symbol.parent))
        >> nameText (symbol.bind Symbol.name) >> angled args fun _ => renderArgs args

/-- Type arguments, separated by commas. -/
def renderArgs : List Ty → Rendering
  | [] => .empty
  | t :: rest =>
    renderBase t >> brackets t >> if rest.isEmpty then .empty else .literal "," >> renderArgs rest

end

/-- A type. -/
def renderTy (t : Ty) : Rendering := renderBase scene around t >> brackets t

/-- Type arguments are rendered one by one. -/
theorem renderArgs_eq_separated (ts : List Ty) :
    renderArgs scene around ts = .separated "," (renderTy scene around) ts := by
  induction ts with
  | nil => rfl
  | cons t ts ih =>
    cases ts with
    | nil => simp [renderArgs, renderTy, Rendering.separated]
    | cons u us =>
      rw [renderArgs, ih]
      simp [renderTy, Rendering.separated, Rendering.andThen_assoc]

end

end DisplayNames
