import DisplayNames.SymId

/-!
# Resolved types

The types that a diagnostic can mention.  Apart from the instantiations of declared aggregates and
the occurrences of type parameters these are arrays, pointers, nullables, by-reference parameters,
stand-ins for types that did not resolve, and a handful of types of expressions that have no type
of their own.

An instantiation carries the arguments of its own level only; the arguments of an enclosing generic
type are in the instantiation outside it.

## Main definitions

* `DisplayNames.Ordinal` — a position or a rank as it was written.
* `DisplayNames.Ty`, `DisplayNames.Inst` — types and instantiations.
* `DisplayNames.Inst.argsAll` — the arguments of all levels, outermost first.
* `DisplayNames.Ty.base` — the innermost element type of an array.
* `DisplayNames.Ty.isBogus` — the type mentions a declaration that could not be loaded.
* `DisplayNames.Ty.same` — equality up to the spelling of ordinals.
-/

set_option relaxedAutoImplicit false
set_option autoImplicit false

namespace DisplayNames

/-- A position or a rank.  Documents may spell zero and one as booleans; the spelling is kept,
because an unnamed parameter shows it. -/
inductive Ordinal where
  | number (n : Int)
  | truth (b : Bool)
  deriving DecidableEq, Repr

namespace Ordinal

/-- The integer that is meant. -/
def value : Ordinal → Int
  | .number n => n
  | .truth b => if b then 1 else 0

/-- The ordinal as it was written. -/
def text : Ordinal → String
  | .number n => toString n
  | .truth b => if b then "True" else "False"

end Ordinal

mutual

/-- A resolved type. -/
inductive Ty where
  /-- An instantiated class, struct, interface or enum. -/
  | aggregate (inst : Inst)
  /-- An occurrence of a type parameter.  The index counts all parameters of the owner, which for
  a nested type includes those of the enclosing types. -/
  | param (index : Ordinal) (ofMethod : Bool) (name : Option String)
  /-- An array; `vector` marks the plain one-dimensional shape. -/
  | array (element : Ty) (rank : Ordinal) (vector : Bool)
  | pointer (referent : Ty)
  | nullable (underlying : Ty)
  /-- A parameter passed by reference. -/
  | byRef (target : Ty) (out : Bool)
  /-- A stand-in for a type that did not resolve.  With a parent, a type or a namespace, it has a
  name and arguments; without one it has no arguments. -/
  | error (parent : Option Ty) (space : Option SymId) (name : Option String)
      (args : Option (List Ty))
  | null
  | void
  | boundLambda
  | unboundLambda
  | methodGroup
  | argumentList
  /-- A generic hole that is still open; it is displayed as nothing. -/
  | placeholder
  /-- A type outside the closed set; the tag tells such types apart. -/
  | unknown (tag : Nat)

/-- An instantiation of an aggregate, nested in the instantiation of the enclosing one. -/
inductive Inst where
  | mk (decl : SymId) (args : List Ty) (outer : Option Inst)

end

instance : Inhabited Ty := ⟨.unknown 0⟩

namespace Inst

/-- The aggregate that is instantiated. -/
def decl : Inst → SymId
  | .mk decl _ _ => decl

/-- The arguments of this level. -/
def args : Inst → List Ty
  | .mk _ args _ => args

/-- The instantiation of the enclosing aggregate. -/
def outer : Inst → Option Inst
  | .mk _ _ outer => outer

/-- The arguments of all levels, outermost first. -/
def argsAll : Inst → List Ty
  | .mk _ args none => args
  | .mk _ args (some outer) => outer.argsAll ++ args

end Inst

namespace Ty

/-- The innermost element type of an array type; any other type itself. -/
def base : Ty → Ty
  | .array element _ _ => element.base
  | t => t

mutual

/-- The type mentions an aggregate that could not be loaded.  What an unresolved type stands for is
not looked into. -/
def isBogus (broken : SymId → Bool) : Ty → Bool
  | .aggregate inst => instBogus broken inst
  | .array element _ _ => element.isBogus broken
  | .pointer referent => referent.isBogus broken
  | .nullable underlying => underlying.isBogus broken
  | .byRef target _ => target.isBogus broken
  | _ => false

/-- The same for an instantiation: the aggregate, the enclosing levels and the arguments. -/
def instBogus (broken : SymId → Bool) : Inst → Bool
  | .mk decl args outer =>
    broken decl
      || (match outer with | none => false | some outer => instBogus broken outer)
      || anyBogus broken args

/-- Some type of a list mentions an aggregate that could not be loaded. -/
def anyBogus (broken : SymId → Bool) : List Ty → Bool
  | [] => false
  | t :: rest => t.isBogus broken || anyBogus broken rest

end

mutual

/-- Equality of types, in which an ordinal counts by its value and not by its spelling. -/
def same : Ty → Ty → Bool
  | .aggregate a, .aggregate b => sameInst a b
  | .param i m n, .param i' m' n' => i.value == i'.value && m == m' && n == n'
  | .array e r v, .array e' r' v' => e.same e' && r.value == r'.value && v == v'
  | .pointer t, .pointer t' => t.same t'
  | .nullable t, .nullable t' => t.same t'
  | .byRef t o, .byRef t' o' => t.same t' && o == o'
  | .error p s n as, .error p' s' n' as' =>
    (match p, p' with | none, none => true | some t, some t' => t.same t' | _, _ => false)
      && s == s' && n == n'
      && (match as, as' with
        | none, none => true | some ts, some ts' => sameAll ts ts' | _, _ => false)
  | .null, .null => true
  | .void, .void => true
  | .boundLambda, .boundLambda => true
  | .unboundLambda, .unboundLambda => true
  | .methodGroup, .methodGroup => true
  | .argumentList, .argumentList => true
  | .placeholder, .placeholder => true
  | .unknown tag, .unknown tag' => tag == tag'
  | _, _ => false

/-- Equality of instantiations, level by level. -/
def sameInst : Inst → Inst → Bool
  | .mk d as o, .mk d' as' o' =>
    d == d' && sameAll as as'
      && (match o, o' with | none, none => true | some i, some i' => sameInst i i' | _, _ => false)

/-- Equality of lists of types. -/
def sameAll : List Ty → List Ty → Bool
  | [], [] => true
  | t :: ts, t' :: ts' => t.same t' && sameAll ts ts'
  | _, _ => false

end

end Ty

end DisplayNames
