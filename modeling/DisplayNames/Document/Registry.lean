import DisplayNames.Document.Declaration

/-!
# The registry of a document

Declarations are looked up by key: the dotted path of a declaration, or its explicit id.  A path
belongs to the first declaration that has it; so do the paths of type parameters and accessors.  An
explicit id must be free, unless it is already a key of the same declaration.

## Main definitions

* `DisplayNames.Document.Registry` — the keys.
* `DisplayNames.Document.register` — the keys of one declaration.
* `DisplayNames.Document.registerAll` — the keys of several declarations, in order.
-/

set_option relaxedAutoImplicit false
set_option autoImplicit false

namespace DisplayNames

namespace Document

/-- Symbols by key. -/
abbrev Registry := Table String SymId

namespace Registry

/-- The symbol under a key that must be known. -/
def lookup (registry : Registry) (key : String) : Except DocumentError SymId :=
  match registry.get? key with
  | none => .error (.unknownSymbol key)
  | some id => .ok id

/-- Enters an explicit id. -/
def enterId (registry : Registry) (key : String) (id : SymId) : Except DocumentError Registry :=
  match registry.get? key with
  | none => .ok (registry.insert key id)
  | some other => if other = id then .ok registry else .error (.duplicateId key)

end Registry

/-- Enters the keys of one declaration: its path, its explicit id, and the paths of what is
generated along with it. -/
def register (registry : Registry) (d : Declared) : Except DocumentError Registry := do
  let registry := registry.insertIfNew d.path d.id
  let registry ← match d.explicitId with
    | none => pure registry
    | some key => Registry.enterId registry key d.id
  return d.generated.foldl (fun registry g => registry.insertIfNew g.path g.id) registry

/-- Enters the keys of several declarations, in order. -/
def registerAll (registry : Registry) : List Declared → Except DocumentError Registry
  | [] => .ok registry
  | d :: rest =>
    match register registry d with
    | .error error => .error error
    | .ok registry => registerAll registry rest

end Document

end DisplayNames
