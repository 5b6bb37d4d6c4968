/-!
# Identities of symbols

A symbol is identified by its place in the declaration tree: the steps that lead to it from the
root, innermost first.  Members of one parent that share a name are told apart by the number of
earlier siblings of that name, so the identity of a declaration does not depend on unrelated
declarations around it.

Identities are compared all the time, and most of them differ, so each one carries a number that is
computed from its steps: different numbers settle the comparison.

## Main definitions

* `DisplayNames.AccessorRole` — the four generated methods of properties and events.
* `DisplayNames.Step` — one step down the declaration tree.
* `DisplayNames.fingerprint` — the number of a list of steps.
* `DisplayNames.SymId` — a place in the tree.

## Main results

* `DisplayNames.SymId.ext_steps` — an identity is given by its steps.
* `DisplayNames.SymId.child_inj` — a symbol lies below another at only one place.
-/

set_option relaxedAutoImplicit false
set_option autoImplicit false

namespace DisplayNames

/-- What an accessor does for its property or event. -/
inductive AccessorRole where
  | get
  | set
  | add
  | remove
  deriving DecidableEq, Repr

/-- The word of a role in paths and names. -/
def AccessorRole.word : AccessorRole → String
  | .get => "get"
  | .set => "set"
  | .add => "add"
  | .remove => "remove"

/-- One step from a symbol to a symbol below it. -/
inductive Step where
  /-- A declared member, behind `copy` earlier siblings of the same name. -/
  | member (name : String) (copy : Nat)
  /-- The type parameter at a position of an aggregate's own list. -/
  | typeParameter (position : Nat)
  /-- An accessor of a property or event. -/
  | accessor (role : AccessorRole)
  deriving DecidableEq, Repr

/-- A number for a step. -/
def Step.code : Step → Nat
  | .member name copy => name.toList.foldl (fun code c => (31 * code + c.toNat) % 1000003) copy
  | .typeParameter position => 1000003 + position
  | .accessor .get => 1
  | .accessor .set => 2
  | .accessor .add => 3
  | .accessor .remove => 4

/-- A number for a list of steps; lists that differ mostly have different numbers. -/
def fingerprint : List Step → Nat
  | [] => 0
  | step :: rest => (1000003 * fingerprint rest + step.code + 1) % 4294967291

/-- A place in the declaration tree: the steps from the root, innermost first. -/
structure SymId where
  /-- The fingerprint of the steps. -/
  number : Nat
  steps : List Step
  number_eq : number = fingerprint steps
  deriving DecidableEq

namespace SymId

/-- An identity is given by its steps. -/
theorem ext_steps {a b : SymId} (h : a.steps = b.steps) : a = b := by
  obtain ⟨_, _, ha⟩ := a
  obtain ⟨_, _, hb⟩ := b
  cases h
  cases ha
  cases hb
  rfl

/-- The root of the tree. -/
def root : SymId := ⟨0, [], rfl⟩

/-- The symbol one step below. -/
def child (id : SymId) (step : Step) : SymId :=
  ⟨(1000003 * id.number + step.code + 1) % 4294967291, step :: id.steps, by
    rw [fingerprint, id.number_eq]⟩

/-- A symbol lies one step below another at only one place. -/
theorem child_inj {a b : SymId} {s t : Step} (h : a.child s = b.child t) : a = b ∧ s = t := by
  have hs : s :: a.steps = t :: b.steps := congrArg steps h
  exact ⟨ext_steps (List.tail_eq_of_cons_eq hs), List.head_eq_of_cons_eq hs⟩

end SymId

end DisplayNames
