import DisplayNames.Document.Request
import DisplayNames.Document.Signature

/-!
# Graph documents

A document is a JSON object with a list of `declarations` and a list of requests under `render`.
It is loaded in stages: list what is declared, register the keys, resolve the signatures, read the
requests.  Each stage is a function of the earlier ones' results, and the first defect in this
order is reported; a key that is taken is a defect of the place where it is taken again, so it
comes before a malformed declaration further on.

## Main definitions

* `DisplayNames.Document` — a loaded document.
* `DisplayNames.Document.declaredGraph` — the symbols of a list of declarations.
* `DisplayNames.Document.ofJson` — loading.
-/

set_option relaxedAutoImplicit false
set_option autoImplicit false

namespace DisplayNames

/-- A loaded document. -/
structure Document where
  graph : Graph
  registry : Document.Registry
  requests : List Document.Request

namespace Document

/-- The symbols that a declaration contributes. -/
def Declared.symbols (d : Declared) : List (SymId × Symbol) :=
  (d.id, d.symbol) :: d.generated.map fun g => (g.id, g.symbol)

/-- The symbols of a list of declarations under a root without a name. -/
def declaredGraph (declared : List Declared) : Graph :=
  ⟨.root, (.root, ⟨none, none, .space⟩) :: declared.flatMap Declared.symbols⟩

/-- The declarations and their keys. -/
def readDeclarations (declarations : List Json) :
    Except DocumentError (List Declared × Registry) := do
  let listing := declareAll .top [] declarations
  let registry ← registerAll [] listing.declared
  match listing.stop with
  | some error => throw error
  | none => return (listing.declared, registry)

/-- Loads a document. -/
def ofJson : Json → Except DocumentError Document
  | .obj fields => do
    let declarations ← Json.listField fields "declarations"
    let (declared, registry) ← readDeclarations declarations
    let declared ← resolveSignatures ⟨declaredGraph declared, registry⟩ declared
    let graph := declaredGraph declared
    let requests ← Json.listField fields "render"
    let requests ← readRequests ⟨graph, registry⟩ 0 requests
    return ⟨graph, registry, requests⟩
  | _ => .error .notObject

end Document

end DisplayNames
