import DisplayNames.Ty.Basic

/-!
# Substitution of type parameters

A context gives types for the leading positions of the two kinds of parameters, those owned by
types and those owned by methods.  A parameter whose position is covered is replaced; everything
else stays.  The replacement is simultaneous: what is put in is not looked at again.  A type in
which the replacement makes no difference is given back as it was written.

## Main definitions

* `DisplayNames.Context` — the types to put in.
* `DisplayNames.Context.ofInst` — the context of members found on an instantiation.
* `DisplayNames.Ty.replace`, `DisplayNames.Inst.replace` — the replacement.
* `DisplayNames.Ty.subst`, `DisplayNames.Inst.subst` — the replacement under an optional context.
* `DisplayNames.Context.compose` — one replacement after another.
-/

set_option relaxedAutoImplicit false
set_option autoImplicit false

namespace DisplayNames

/-- Types for the leading positions of type-owned and method-owned parameters. -/
structure Context where
  ofType : List Ty
  ofMethod : List Ty

namespace Context

/-- The context of members found on an instantiation: the arguments of all its levels, and the
given ones for the member's own parameters. -/
def ofInst (on : Option Inst) (ofMethod : List Ty) : Context :=
  ⟨(on.map Inst.argsAll).getD [], ofMethod⟩

/-- The context covers no position. -/
def isNop (ctx : Context) : Bool := ctx.ofType.isEmpty && ctx.ofMethod.isEmpty

/-- The type for a position, if it is covered. -/
def find? (ctx : Context) (index : Ordinal) (ofMethod : Bool) : Option Ty :=
  if index.value < 0 then none
  else (if ofMethod then ctx.ofMethod else ctx.ofType)[index.value.toNat]?

end Context

mutual

/-- Replaces every covered parameter of a type. -/
def Ty.replace (ctx : Context) : Ty → Ty
  | .aggregate inst => .aggregate (Inst.replace ctx inst)
  | .param index ofMethod name => (ctx.find? index ofMethod).getD (.param index ofMethod name)
  | .array element rank vector =>
    let element' := Ty.replace ctx element
    .array (if element'.same element then element else element') rank vector
  | .pointer referent =>
    let referent' := Ty.replace ctx referent
    .pointer (if referent'.same referent then referent else referent')
  | .nullable underlying =>
    let underlying' := Ty.replace ctx underlying
    .nullable (if underlying'.same underlying then underlying else underlying')
  | .byRef target out =>
    let target' := Ty.replace ctx target
    .byRef (if target'.same target then target else target') out
  | .error parent space name args =>
    let parent' := match parent with | none => none | some t => some (Ty.replace ctx t)
    let args' := match args with | none => none | some ts => some (Ty.replaceAll ctx ts)
    if (Ty.error parent' space name args').same (.error parent space name args) then
      .error parent space name args
    else .error parent' space name args'
  | .null => .null
  | .void => .void
  | .boundLambda => .boundLambda
  | .unboundLambda => .unboundLambda
  | .methodGroup => .methodGroup
  | .argumentList => .argumentList
  | .placeholder => .placeholder
  | .unknown tag => .unknown tag

/-- Replaces every covered parameter of an instantiation. -/
def Inst.replace (ctx : Context) : Inst → Inst
  | .mk decl args outer =>
    let args' := Ty.replaceAll ctx args
    let outer' := match outer with | none => none | some inst => some (Inst.replace ctx inst)
    if Ty.sameInst (.mk decl args' outer') (.mk decl args outer) then .mk decl args outer
    else .mk decl args' outer'

/-- Replaces every covered parameter of several types. -/
def Ty.replaceAll (ctx : Context) : List Ty → List Ty
  | [] => []
  | t :: rest => Ty.replace ctx t :: Ty.replaceAll ctx rest

end

/-- Several types are replaced one by one. -/
theorem Ty.replaceAll_eq_map (ctx : Context) (ts : List Ty) :
    Ty.replaceAll ctx ts = ts.map (Ty.replace ctx) := by
  induction ts with
  | nil => rfl
  | cons t ts ih => simp [Ty.replaceAll, ih]

/-- The type under an optional context.  A context that covers nothing changes nothing. -/
def Ty.subst (ctx : Option Context) (t : Ty) : Ty :=
  match ctx with
  | none => t
  | some ctx => if ctx.isNop then t else t.replace ctx

/-- The instantiation under an optional context. -/
def Inst.subst (ctx : Option Context) (inst : Inst) : Inst :=
  match ctx with
  | none => inst
  | some ctx => if ctx.isNop then inst else inst.replace ctx

/-- Several types under an optional context. -/
def Ty.substAll (ctx : Option Context) (ts : List Ty) : List Ty := ts.map (Ty.subst ctx)

/-- The context that has the effect of `inner` followed by `outer`.  Positions that `inner` does
not cover fall through to `outer`. -/
def Context.compose (outer inner : Context) : Context :=
  if inner.isNop then outer
  else if outer.isNop then inner
  else
    ⟨Ty.substAll (some outer) inner.ofType ++ outer.ofType.drop inner.ofType.length,
      Ty.substAll (some outer) inner.ofMethod ++ outer.ofMethod.drop inner.ofMethod.length⟩

end DisplayNames
