import DisplayNames.Render.Renderer

/-!
# Arguments of diagnostics

A diagnostic is a template filled from a list of arguments.  References to types and symbols are
rendered; the rest are canned phrases or plain text.  The message layer is told which of the two it
gets, so that it can quote names and leave phrases alone.

## Main definitions

* `DisplayNames.Argument` — the arguments.
* `DisplayNames.Formatted` — the text of one.
* `DisplayNames.Argument.format` — from the one to the other.
-/

set_option relaxedAutoImplicit false
set_option autoImplicit false

namespace DisplayNames

/-- An argument of a diagnostic. -/
inductive Argument where
  /-- A canned phrase. -/
  | phrase (id : MessageId)
  /-- The phrase for a kind of symbols. -/
  | kind (kind : SymbolKind)
  | type (t : Ty) (ctx : Option Context)
  | symbol (id : Option SymId) (ctx : Option Context)
  /-- A bare name. -/
  | name (name : Option String)
  | text (text : String)
  /-- A member as seen through an instantiation of its containing type. -/
  | memberOn (id : Option SymId) (on : Option Inst)
  /-- A method on an instantiation, with its own type arguments. -/
  | methodOn (id : Option SymId) (on : Option Inst) (typeArgs : List Ty)
  /-- An argument outside the closed set. -/
  | unknown

/-- The text of an argument, and whether it is a rendered name. -/
structure Formatted where
  text : Option String
  isName : Bool
  deriving DecidableEq, Repr

namespace Argument

/-- What has to be rendered for an argument. -/
def subject? : Argument → Option Subject
  | .type t ctx => some (.type t ctx)
  | .symbol id ctx => some (.symbol id ctx true)
  | .memberOn id on => some (.symbol id (some (.ofInst on [])) true)
  | .methodOn id on typeArgs => some (.symbol id (some (.ofInst on typeArgs)) true)
  | _ => none

/-- The text of an argument that needs no rendering; none for an unknown argument. -/
def plain (catalog : Catalog) : Argument → Except RenderError (Option Formatted)
  | .phrase id => .ok (some ⟨some (catalog id), false⟩)
  | .kind k =>
    match MessageId.ofKind? k with
    | none => .error (.kindWithoutPhrase k)
    | some id => .ok (some ⟨some (catalog id), false⟩)
  | .name n => .ok (some ⟨if n = some indexerName then some "this" else n, false⟩)
  | .text s => .ok (some ⟨some s, false⟩)
  | _ => .ok none

/-- The text of an argument.  Each reference is rendered in a session of its own, so only the memo
is shared between calls. -/
def format (arg : Argument) (g : Graph) (display : Display) (memo : Memo) :
    Except Fault (Option Formatted) × Memo :=
  match arg.subject? with
  | some subject =>
    let (result, renderer) := Renderer.render ⟨.closed, memo⟩ g display subject
    (result.map fun text => some ⟨some text, true⟩, renderer.memo)
  | none => ((arg.plain display.catalog).mapError .broken, memo)

end Argument

end DisplayNames
