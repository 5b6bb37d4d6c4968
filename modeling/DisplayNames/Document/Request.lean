import DisplayNames.Document.TypeExpr
import DisplayNames.Render.Renderer

/-!
# Requests in documents

A request asks for the display name of a symbol or of a type.  The context comes from the
instantiation in `on`, or from the list in `type_args`; in both cases `method_type_args` are the
arguments for the parameters of methods.

## Main definitions

* `DisplayNames.Document.Request` — a request.
* `DisplayNames.Document.readRequest` — reading one.
* `DisplayNames.Document.readRequests` — reading the list of a document.
-/

set_option relaxedAutoImplicit false
set_option autoImplicit false

namespace DisplayNames

namespace Document

/-- A request for a display name, with the label under which the answer is reported. -/
structure Request where
  label : Json
  subject : Subject

/-- The context of a request. -/
def readContext (names : Names) (fields : List (String × Json)) :
    Except DocumentError (Option Context) := do
  let ofMethod ← resolveList names [] fields "method_type_args"
  match Table.get? fields "on" with
  | some on =>
    let on ← resolve names [] on
    let on ← asInst .onNotAggregate on
    return some (.ofInst (some on) ofMethod)
  | none =>
    if Table.contains fields "type_args" || !ofMethod.isEmpty then
      let ofType ← resolveList names [] fields "type_args"
      return some ⟨ofType, ofMethod⟩
    else return none

/-- A request.  The label of a symbol is its key unless another one is given, that of a type its
name if it is written as one. -/
def readRequest (names : Names) (fields : List (String × Json)) :
    Except DocumentError Request := do
  let ctx ← readContext names fields
  if Table.contains fields "symbol" then
    let path ← Json.stringField fields "symbol"
    let id ← names.registry.lookup path
    return ⟨Json.fieldD fields "label" (.str path),
      .symbol (some id) ctx (Json.flag fields "args" true)⟩
  else
    match Table.get? fields "type" with
    | none => throw .requestWithoutSubject
    | some value =>
      let t ← resolve names [] value
      let label := match value with
        | .str name => .str name
        | _ => .str "type"
      return ⟨Json.fieldD fields "label" label, .type t ctx⟩

/-- The requests from a position on. -/
def readRequests (names : Names) : (position : Nat) → List Json →
    Except DocumentError (List Request)
  | _, [] => .ok []
  | position, .obj fields :: rest => do
    let request ← readRequest names fields
    let requests ← readRequests names (position + 1) rest
    return request :: requests
  | position, _ :: _ => .error (.requestNotObject position)

end Document

end DisplayNames
