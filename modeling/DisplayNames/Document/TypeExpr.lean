import DisplayNames.Document.Registry

/-!
# Types in documents

A type is written as a name or as an object.  A name is that of a type parameter in scope or else
the key of an aggregate.  An object says its form by the first of these keys that it has:

* `type`: an instantiation, with `args` and `outer`;
* `array`: an array, with `rank` and `vector`;
* `pointer`, `nullable`, `ref`, `out`: the type around another one;
* `param`: a bare parameter by its index, with `method` and `name`;
* `error`: an unresolved type, with `args` and a `parent` or a `namespace`;
* `special`: one of the types without structure.

## Main definitions

* `DisplayNames.Document.Names` — what names are resolved against.
* `DisplayNames.Document.TypeForm` — the forms of a type object.
* `DisplayNames.Document.assemble` — a type object from its resolved parts.
* `DisplayNames.Document.resolve` — a type.
-/

set_option relaxedAutoImplicit false
set_option autoImplicit false

namespace DisplayNames

namespace Document

/-- What names are resolved against: the declared symbols and their keys. -/
structure Names where
  graph : Graph
  registry : Registry

/-- The forms of a type object. -/
inductive TypeForm where
  | named
  | array
  | pointer
  | nullable
  | ref
  | out
  | param
  | error
  | special
  deriving DecidableEq, Repr

/-- The key that gives an object its form. -/
def TypeForm.key : TypeForm → String
  | .named => "type"
  | .array => "array"
  | .pointer => "pointer"
  | .nullable => "nullable"
  | .ref => "ref"
  | .out => "out"
  | .param => "param"
  | .error => "error"
  | .special => "special"

/-- The forms in the order in which their keys are looked for. -/
def TypeForm.all : List TypeForm :=
  [.named, .array, .pointer, .nullable, .ref, .out, .param, .error, .special]

/-- The form of an object. -/
def TypeForm.of? (fields : List (String × Json)) : Option TypeForm :=
  TypeForm.all.find? fun form => Table.contains fields form.key

/-- The types without structure, by name. -/
def specialType? : String → Option Ty
  | "null" => some .null
  | "void" => some .void
  | "anonymous_method" => some .boundLambda
  | "lambda" => some .unboundLambda
  | "method_group" => some .methodGroup
  | "arglist" => some .argumentList
  | "placeholder" => some .placeholder
  | _ => none

/-- A value as a position or rank; booleans count. -/
def ordinal? : Json → Option Ordinal
  | .int n => some (.number n)
  | .bool b => some (.truth b)
  | _ => none

/-- A value as a position or rank that is at least some bound. -/
def ordinalFrom? (least : Int) (value : Json) : Option Ordinal :=
  (ordinal? value).filter fun ordinal => least ≤ ordinal.value

/-- The instantiation that a type is, or an error. -/
def asInst (error : DocumentError) : Ty → Except DocumentError Inst
  | .aggregate inst => .ok inst
  | _ => .error error

/-- The namespace of an unresolved type: the root unless another one is named. -/
def errorNamespace (names : Names) (fields : List (String × Json)) :
    Except DocumentError SymId := do
  if Table.contains fields "namespace" then
    let path ← Json.stringField fields "namespace"
    let id ← names.registry.lookup path
    if ((names.graph.find? id).map Symbol.kind) = some .space then pure id
    else throw (.notNamespace path)
  else pure names.graph.root

/-- A type object from the types under its keys and from its list of arguments. -/
def assemble (names : Names) (fields : List (String × Json))
    (child : String → Option (Except DocumentError Ty)) (args : Except DocumentError (List Ty)) :
    Except DocumentError Ty :=
  let required (form : TypeForm) := (child form.key).getD (.error (.unrecognizedType fields))
  match TypeForm.of? fields with
  | none => .error (.unrecognizedType fields)
  | some .named => do
    let path ← Json.stringField fields "type"
    let id ← names.registry.lookup path
    if !names.graph.isAggregate id then throw (.notType path)
    let args ← args
    let outer ← match child "outer" with
      | none => pure none
      | some outer => pure (some (← asInst .outerNotAggregate (← outer)))
    return .aggregate (names.graph.instantiate id args outer)
  | some .array => do
    let rank := Json.fieldD fields "rank" (.int 1)
    let some ordinal := ordinalFrom? 1 rank | throw (.badRank rank)
    return .array (← required .array) ordinal
      (Json.flag fields "vector" (ordinal.value = 1))
  | some .pointer => do return .pointer (← required .pointer)
  | some .nullable => do return .nullable (← required .nullable)
  | some .ref => do return .byRef (← required .ref) false
  | some .out => do return .byRef (← required .out) true
  | some .param => do
    let index := Json.fieldD fields "param" .null
    let some ordinal := ordinalFrom? 0 index | throw (.badIndex index)
    let name ← match Json.fieldD fields "name" .null with
      | .null => pure none
      | name => pure (some (← name.asString "name"))
    return .param ordinal (Json.flag fields "method" false) name
  | some .error =>
    match Json.fieldD fields "error" .null with
    | .null => .ok (.error none none none none)
    | name => do
      let name ← name.asString "error"
      let args ← args
      match child "parent" with
      | some parent => return .error (some (← parent)) none (some name) (some args)
      | none => return .error none (some (← errorNamespace names fields)) (some name) (some args)
  | some .special => do
    let name ← (Json.fieldD fields "special" .null).asString "special"
    match specialType? name with
    | some t => return t
    | none => throw (.unknownSpecial name)

/-- A type that is written as a name. -/
def resolveName (names : Names) (scope : Scope) (name : String) : Except DocumentError Ty :=
  match Table.get? scope name with
  | some t => .ok t
  | none =>
    match (names.registry.get? name).filter names.graph.isAggregate with
    | some id => .ok (.aggregate (names.graph.instantiate id [] none))
    | none => .error (.unknownType name)

mutual

/-- A type. -/
def resolve (names : Names) (scope : Scope) : Json → Except DocumentError Ty
  | .str name => resolveName names scope name
  | .obj fields =>
    assemble names fields (fun key => resolveAt names scope key fields)
      (resolveArgs names scope fields)
  | value => .error (.typeShape value)

/-- Several types. -/
def resolveAll (names : Names) (scope : Scope) : List Json → Except DocumentError (List Ty)
  | [] => .ok []
  | value :: rest => do
    let t ← resolve names scope value
    let ts ← resolveAll names scope rest
    return t :: ts

/-- The type under a key. -/
def resolveAt (names : Names) (scope : Scope) (key : String) :
    List (String × Json) → Option (Except DocumentError Ty)
  | [] => none
  | (k, value) :: rest =>
    if k = key then some (resolve names scope value) else resolveAt names scope key rest

/-- The list of types under the key of arguments; an absent one is empty. -/
def resolveArgs (names : Names) (scope : Scope) :
    List (String × Json) → Except DocumentError (List Ty)
  | [] => .ok []
  | (k, value) :: rest =>
    if k = "args" then
      match value with
      | .arr items => resolveAll names scope items
      | _ => .error (.notList "args")
    else resolveArgs names scope rest

end

/-- The type under a key is that of the value under the key. -/
theorem resolveAt_eq (names : Names) (scope : Scope) (key : String)
    (fields : List (String × Json)) :
    resolveAt names scope key fields = (Table.get? fields key).map (resolve names scope) := by
  induction fields with
  | nil => simp [resolveAt]
  | cons field rest ih =>
    obtain ⟨k, value⟩ := field
    by_cases h : k = key <;> simp [resolveAt, Table.get?_cons, h, ih]

/-- The types of a list under a key; an absent list is empty. -/
def resolveList (names : Names) (scope : Scope) (fields : List (String × Json)) (key : String) :
    Except DocumentError (List Ty) := do
  resolveAll names scope (← Json.listField fields key)

end Document

end DisplayNames
