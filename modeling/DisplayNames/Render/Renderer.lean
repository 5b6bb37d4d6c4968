import DisplayNames.Render.Session
import DisplayNames.Render.Symbol

/-!
# Renderers

A renderer turns symbols and types of a graph into text, one at a time.  Two things outlive a call:
the session, which a caller can hold open between calls, and the memo of the methods whose
signature was checked for broken references.  A signature is checked once; later edits of the graph
do not change the answer.

## Main definitions

* `DisplayNames.Display` — the nice names and the catalog in use.
* `DisplayNames.Memo` — the answers about signatures so far.
* `DisplayNames.Subject` — what to render.
* `DisplayNames.Subject.rendering` — the walk for a subject.
* `DisplayNames.Renderer.render` — one call.
-/

set_option relaxedAutoImplicit false
set_option autoImplicit false

namespace DisplayNames

/-- The nice names and the texts of the phrases. -/
structure Display where
  catalog : Catalog := MessageId.default
  niceNames : NiceNames := NiceNames.default

/-- For each method that was checked, whether its signature was bogus then. -/
abbrev Memo := Table SymId Bool

namespace Memo

/-- The state of a signature: the remembered one, else the present one. -/
def isBogus (memo : Memo) (g : Graph) (id : SymId) : Bool :=
  (memo.get? id).getD (g.signatureBogus id)

/-- Remembers the state of a signature. -/
def examine (memo : Memo) (g : Graph) (id : SymId) : Memo :=
  memo.insertIfNew id (g.signatureBogus id)

/-- Remembers the states of several signatures. -/
def examineAll (memo : Memo) (g : Graph) (ids : List SymId) : Memo :=
  ids.foldl (fun memo id => memo.examine g id) memo

end Memo

/-- Something to render. -/
inductive Subject where
  /-- A symbol, which may be missing, under a context.  The flag asks for a method's arguments. -/
  | symbol (id : Option SymId) (ctx : Option Context) (args : Bool)
  /-- A type under a context. -/
  | type (t : Ty) (ctx : Option Context)

namespace Subject

/-- What the walk over a graph produces for a subject. -/
def rendering (scene : Scene) : Subject → Rendering
  | .symbol none _ _ => .fail (.badSymbolKind none)
  | .symbol (some id) ctx args => scene.symbol id ctx args
  | .type t ctx => scene.type t ctx

end Subject

/-- What outlives a call. -/
structure Renderer where
  session : Session := {}
  memo : Memo := []

namespace Renderer

/-- The walk for a subject, with the memo as it stands. -/
def rendering (r : Renderer) (g : Graph) (display : Display) (subject : Subject) : Rendering :=
  subject.rendering ⟨g, display.niceNames, r.memo.isBogus g⟩

/-- Renders a subject.  An open session is an error and stays as it is; otherwise the session is
closed afterwards, and the signatures that were checked on the way are remembered. -/
def render (r : Renderer) (g : Graph) (display : Display) (subject : Subject) :
    Except Fault String × Renderer :=
  if r.session.isOpen then (.error (.broken .sessionInProgress), r)
  else
    let rendering := r.rendering g display subject
    (rendering.finish display.catalog, ⟨.closed, r.memo.examineAll g rendering.examined⟩)

/-- Whether the signature of a method is bogus, with the answer remembered. -/
def checkSignature (r : Renderer) (g : Graph) (id : SymId) : Bool × Renderer :=
  (r.memo.isBogus g id, { r with memo := r.memo.examine g id })

end Renderer

end DisplayNames
