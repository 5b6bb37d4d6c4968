import DisplayNames.Message
import DisplayNames.Render.Error

/-!
# Renderings

What a walk over the graph produces: the pieces of the text so far, the methods whose signature was
looked at for broken references, and the reason why the walk stopped early, if it did.  Renderings
are put one behind the other; behind one that stopped nothing comes, and nothing is looked at.

Pieces name canned phrases and do not hold their text.  The catalog is consulted last, so that it
cannot influence anything else.

## Main definitions

* `DisplayNames.Piece` — a literal piece or a phrase.
* `DisplayNames.Fault` — why a walk stops.
* `DisplayNames.Rendering` — the product of a walk, with `>>`.
* `DisplayNames.Rendering.separated` — several things with a separator between them.
* `DisplayNames.Rendering.finish` — the text under a catalog.

## Main results

* `DisplayNames.Rendering.andThen_assoc`, `DisplayNames.Rendering.empty_andThen`,
  `DisplayNames.Rendering.andThen_empty` — renderings form a monoid.
-/

set_option relaxedAutoImplicit false
set_option autoImplicit false

namespace DisplayNames

/-- A piece of a display name. -/
inductive Piece where
  | literal (text : String)
  | phrase (id : MessageId)
  deriving DecidableEq, Repr

/-- The text of a piece under a catalog. -/
def Piece.text (catalog : Catalog) : Piece → String
  | .literal text => text
  | .phrase id => catalog id

/-- Why a walk over the graph stops. -/
inductive Fault where
  /-- An invariant does not hold. -/
  | broken (error : RenderError)
  /-- The walk is longer than any walk over an acyclic graph. -/
  | endless
  deriving DecidableEq, Repr

/-- The product of a walk over the graph. -/
structure Rendering where
  pieces : List Piece
  /-- The methods whose signature was checked for broken references. -/
  examined : List SymId
  stop : Option Fault
  deriving DecidableEq

namespace Rendering

/-- Nothing at all. -/
def empty : Rendering := ⟨[], [], none⟩

/-- A literal piece; it counts as a piece even if it is empty. -/
def literal (text : String) : Rendering := ⟨[.literal text], [], none⟩

/-- A canned phrase. -/
def phrase (id : MessageId) : Rendering := ⟨[.phrase id], [], none⟩

/-- The signature of a method is checked. -/
def examine (id : SymId) : Rendering := ⟨[], [id], none⟩

/-- The walk stops. -/
def stopped (fault : Fault) : Rendering := ⟨[], [], some fault⟩

/-- The walk stops at a broken invariant. -/
def fail (error : RenderError) : Rendering := stopped (.broken error)

/-- One rendering and then another, which is not begun if the first one stopped. -/
def andThen (a : Rendering) (b : Unit → Rendering) : Rendering :=
  match a.stop with
  | some _ => a
  | none =>
    let b := b ()
    ⟨a.pieces ++ b.pieces, a.examined ++ b.examined, b.stop⟩

instance : AndThen Rendering := ⟨andThen⟩

@[simp] theorem empty_andThen (a : Rendering) : (empty >> a) = a := by
  cases a
  rfl

@[simp] theorem andThen_empty (a : Rendering) : (a >> empty) = a := by
  obtain ⟨pieces, examined, stop⟩ := a
  change andThen _ _ = _
  cases stop <;> simp [andThen, empty]

theorem andThen_assoc (a b c : Rendering) : ((a >> b) >> c) = (a >> b >> c) := by
  obtain ⟨p, e, s⟩ := a
  obtain ⟨p', e', s'⟩ := b
  change andThen (andThen _ _) _ = andThen _ fun _ => andThen _ _
  cases s <;> cases s' <;> simp [andThen]

/-- The renderings of several things with a separator between any two of them. -/
def separated {α : Type} (separator : String) (render : α → Rendering) : List α → Rendering
  | [] => empty
  | [a] => render a
  | a :: next :: rest =>
    render a >> literal separator >> separated separator render (next :: rest)

/-- The texts of the pieces under a catalog. -/
def parts (r : Rendering) (catalog : Catalog) : List String := r.pieces.map (Piece.text catalog)

/-- The text of a walk that went through, or the reason why it stopped. -/
def finish (r : Rendering) (catalog : Catalog) : Except Fault String :=
  match r.stop with
  | none => .ok (String.join (r.parts catalog))
  | some fault => .error fault

end Rendering

end DisplayNames
