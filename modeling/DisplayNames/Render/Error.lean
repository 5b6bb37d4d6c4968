import DisplayNames.Symbol
import DisplayNames.Text.Quoted

/-!
# Rendering errors

Rendering fails only when the graph or the caller breaks an invariant.  Each way of doing so is a
cause of its own; the wording is in one place.

## Main definitions

* `DisplayNames.RenderError` — the causes.
* `DisplayNames.RenderError.message` — their wording.
-/

set_option relaxedAutoImplicit false
set_option autoImplicit false

namespace DisplayNames

/-- The ways in which rendering can fail. -/
inductive RenderError where
  /-- A session was opened, or a name rendered, while a session is open. -/
  | sessionInProgress
  /-- Text was appended while no session is open. -/
  | appendOutsideSession
  /-- A session was closed while none is open. -/
  | sessionNotStarted
  /-- There is no symbol, or one of a kind without a display name. -/
  | badSymbolKind (kind : Option SymbolKind)
  /-- The type lies outside the closed set. -/
  | badTypeKind
  /-- A constructor or destructor outside an aggregate. -/
  | methodOutsideAggregate (method : Option String)
  /-- An accessor that its property does not know. -/
  | detachedPropertyAccessor (accessor property : Option String)
  /-- An accessor that its event does not know. -/
  | detachedEventAccessor (accessor event : Option String)
  /-- A conversion operator without a return type. -/
  | conversionWithoutResult (method : Option String)
  /-- An operator method whose name stands for nothing. -/
  | unknownOperator (method : Option String)
  /-- An unresolved type with a parent but without a name or arguments. -/
  | errorTypeIncomplete
  /-- An unresolved type with arguments but without a parent. -/
  | errorTypeArguments
  /-- A kind of symbols that has no phrase. -/
  | kindWithoutPhrase (kind : SymbolKind)
  deriving DecidableEq, Repr

/-- The word for a kind in messages. -/
def SymbolKind.qualifiedWord (kind : SymbolKind) : String := "SymbolKind." ++ kind.word

namespace RenderError

/-- The wording of a failure. -/
def message : RenderError → String
  | .sessionInProgress => "render session already in progress"
  | .appendOutsideSession => "append outside of a render session"
  | .sessionNotStarted => "render session was never started"
  | .badSymbolKind none => "bad symbol kind: None"
  | .badSymbolKind (some kind) => "bad symbol kind: " ++ kind.qualifiedWord
  | .badTypeKind => "bad type kind: None"
  | .methodOutsideAggregate method =>
    "method " ++ Text.quotedOption method ++ " is not declared in an aggregate"
  | .detachedPropertyAccessor accessor property =>
    "accessor " ++ Text.quotedOption accessor ++ " is neither getter nor setter of "
      ++ Text.quotedOption property
  | .detachedEventAccessor accessor event =>
    "accessor " ++ Text.quotedOption accessor ++ " is neither adder nor remover of "
      ++ Text.quotedOption event
  | .conversionWithoutResult method =>
    "conversion operator " ++ Text.quotedOption method ++ " has no return type"
  | .unknownOperator method => "unknown operator method name: " ++ Text.quotedOption method
  | .errorTypeIncomplete => "error type with a parent must carry a name and type arguments"
  | .errorTypeArguments => "parentless error type must not carry type arguments"
  | .kindWithoutPhrase kind => "symbol kind " ++ kind.qualifiedWord ++ " has no display phrase"

end RenderError

end DisplayNames
