import DisplayNames.Document.TypeExpr

/-!
# Signatures in documents

The types in the signatures of methods and properties may name declarations that come later, so
they are resolved when all declarations are known.

## Main definitions

* `DisplayNames.Document.resolveImpl` — the explicit implementation of an interface member.
* `DisplayNames.Document.resolveSignature` — a declared symbol with its signature filled in.
-/

set_option relaxedAutoImplicit false
set_option autoImplicit false

namespace DisplayNames

namespace Document

/-- The explicit implementation of an interface member, if the declaration is one.  A slot that is
known not to resolve is given by its text alone, if at all. -/
def resolveImpl (names : Names) (pending : Pending) : Except DocumentError ExplicitImpl :=
  match Json.fieldD pending.fields "explicit_impl" .null with
  | .obj slot => do
    let on ← resolve names pending.scope (Json.fieldD slot "type" .null)
    let on ← asInst .slotTypeNotAggregate on
    let member ← names.registry.lookup (← Json.stringField slot "member")
    return { declared := true, slot := some ⟨some member, some on⟩ }
  | .null =>
    match Table.get? pending.fields "explicit_impl_error" with
    | none => .ok .absent
    | some .null => .ok { declared := true }
    | some text => do
      let text ← text.asString "explicit_impl_error"
      let stand := Ty.error none (some names.graph.root) (some text) (some [])
      return { declared := true, unresolved := some stand }
  | _ => .error .slotNotObject

/-- The result of a method; without one the method has no return type. -/
def resolveResult (names : Names) (pending : Pending) : Except DocumentError (Option Ty) :=
  match Table.get? pending.fields "returns" with
  | none => .ok none
  | some result => (resolve names pending.scope result).map some

/-- A declared symbol with its signature filled in. -/
def resolveSignature (names : Names) (d : Declared) : Except DocumentError Symbol :=
  match d.pending, d.symbol.detail with
  | some pending, .method m => do
    let params ← resolveList names pending.scope pending.fields "params"
    let returns ← resolveResult names pending
    let impl ← resolveImpl names pending
    return { d.symbol with detail := .method { m with params, returns, impl } }
  | some pending, .property p => do
    let params ← resolveList names pending.scope pending.fields "params"
    let impl ← resolveImpl names pending
    return { d.symbol with detail := .property { p with params, impl } }
  | _, _ => .ok d.symbol

/-- The declarations with their signatures filled in. -/
def resolveSignatures (names : Names) : List Declared → Except DocumentError (List Declared)
  | [] => .ok []
  | d :: rest => do
    let symbol ← resolveSignature names d
    let rest ← resolveSignatures names rest
    return { d with symbol } :: rest

end Document

end DisplayNames
