import DisplayNames.Symbol
import DisplayNames.Table

/-!
# Canned phrases

The words in display names that are not names: what stands for the root namespace, for an
unresolved type, for a lambda expression and so on, and the phrases for the kinds of symbols.  A
catalog can replace any of them without any other effect.

## Main definitions

* `DisplayNames.MessageId` — the phrases.
* `DisplayNames.MessageId.default` — their built-in texts.
* `DisplayNames.Catalog` — a choice of texts.
-/

set_option relaxedAutoImplicit false
set_option autoImplicit false

namespace DisplayNames

/-- The canned phrases. -/
inductive MessageId where
  | globalNamespace
  | errorSymbol
  | null
  | void
  | anonymousMethod
  | lambda
  | methodGroup
  | argumentList
  | kindMethod
  | kindType
  | kindNamespace
  | kindField
  | kindVariable
  | kindProperty
  | kindEvent
  | kindTypeParameter
  | kindUnknown
  deriving DecidableEq, Repr

namespace MessageId

/-- All phrases. -/
def all : List MessageId :=
  [.globalNamespace, .errorSymbol, .null, .void, .anonymousMethod, .lambda, .methodGroup,
    .argumentList, .kindMethod, .kindType, .kindNamespace, .kindField, .kindVariable,
    .kindProperty, .kindEvent, .kindTypeParameter, .kindUnknown]

/-- The key of a phrase in a configuration. -/
def key : MessageId → String
  | .globalNamespace => "GLOBAL_NAMESPACE"
  | .errorSymbol => "ERRORSYM"
  | .null => "NULL"
  | .void => "VOID"
  | .anonymousMethod => "ANON_METHOD"
  | .lambda => "LAMBDA"
  | .methodGroup => "METHOD_GROUP"
  | .argumentList => "ARG_LIST"
  | .kindMethod => "SK_METHOD"
  | .kindType => "SK_CLASS"
  | .kindNamespace => "SK_NAMESPACE"
  | .kindField => "SK_FIELD"
  | .kindVariable => "SK_VARIABLE"
  | .kindProperty => "SK_PROPERTY"
  | .kindEvent => "SK_EVENT"
  | .kindTypeParameter => "SK_TYVAR"
  | .kindUnknown => "SK_UNKNOWN"

/-- The phrase under a key. -/
def ofKey? (key : String) : Option MessageId := all.find? fun id => id.key = key

/-- The built-in text of a phrase. -/
def default : MessageId → String
  | .globalNamespace => "<global namespace>"
  | .errorSymbol => "<error>"
  | .null => "<null>"
  | .void => "void"
  | .anonymousMethod => "anonymous method"
  | .lambda => "lambda expression"
  | .methodGroup => "method group"
  | .argumentList => "__arglist"
  | .kindMethod => "method"
  | .kindType => "type"
  | .kindNamespace => "namespace"
  | .kindField => "field"
  | .kindVariable => "variable"
  | .kindProperty => "property"
  | .kindEvent => "event"
  | .kindTypeParameter => "type parameter"
  | .kindUnknown => "element"

/-- The phrase for a kind of symbols; scopes have none. -/
def ofKind? : SymbolKind → Option MessageId
  | .method => some .kindMethod
  | .aggregate => some .kindType
  | .space => some .kindNamespace
  | .field => some .kindField
  | .localVariable => some .kindVariable
  | .property => some .kindProperty
  | .event => some .kindEvent
  | .typeParameter => some .kindTypeParameter
  | .scope => none

end MessageId

/-- A text for every phrase. -/
abbrev Catalog := MessageId → String

/-- The built-in texts with some of them replaced. -/
def Catalog.ofOverrides (overrides : Table MessageId String) : Catalog :=
  fun id => (overrides.get? id).getD id.default

end DisplayNames
