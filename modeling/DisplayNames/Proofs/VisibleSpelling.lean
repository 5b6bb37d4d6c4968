import DisplayNames.Proofs.Catalogs
import DisplayNames.Proofs.EnclosingTypes

/-!
# Visible spelling

Two types that are equal up to the spelling of ordinals are displayed by the same pieces, except for
the indices of parameters without a name, which are shown as they were written: a boolean where the
other one has a number.  As long as every part of a type is displayed, the text of the two types is
the same only if all pieces are.

A pair of renderings *tells* whether something holds if they are equal in case it holds, and have
different texts otherwise.  Renderings in a row tell whether all that holds which they tell apart.

## Main definitions

* `DisplayNames.Piece.Varies` — pieces that are equal up to the spelling of an ordinal.
* `DisplayNames.Rendering.Tells` — two renderings tell whether something holds.
* `DisplayNames.Scene.ShowsAll` — every part of a type is displayed.
* `DisplayNames.Scene.TellsApart` — so do the displays of two types.

## Main results

* `DisplayNames.Piece.eq_of_join_eq` — the text of such pieces determines them.
* `DisplayNames.Rendering.Tells.andThen` — renderings in a row.
* `DisplayNames.Scene.TellsApart.inst`, `DisplayNames.Scene.TellsApart.error` — types that are put
  together from others.
-/

set_option relaxedAutoImplicit false
set_option autoImplicit false

namespace DisplayNames

/-! ## Pieces -/

/-- The two spellings of a number begin with different letters. -/
lemma Ordinal.eq_of_text_append {i j : Ordinal} (hvalue : i.value = j.value) {s t : String}
    (htext : i.text ++ s = j.text ++ t) : i = j := by
  have hspelling {n : Int} {b : Bool} (hn : n = if b then 1 else 0) {s t : String} :
      (Ordinal.number n).text ++ s ≠ (Ordinal.truth b).text ++ t := by
    intro h
    have hzero : (Int.repr 0).toList = ['0'] := rfl
    have hone : (Int.repr 1).toList = ['1'] := rfl
    have hlist := congrArg String.toList h
    cases b <;> simp [hn, text, hzero, hone] at hlist
  cases i with
  | number n =>
    cases j with
    | number m => exact congrArg number hvalue
    | truth b => exact absurd htext (hspelling hvalue)
  | truth b =>
    cases j with
    | number m => exact absurd htext.symm (hspelling hvalue.symm)
    | truth c => cases b <;> cases c <;> simp_all [value]

/-- Pieces that are the same, or the same number in two spellings. -/
inductive Piece.Varies : Piece → Piece → Prop
  | refl (piece : Piece) : Varies piece piece
  | ordinal {i j : Ordinal} : i.value = j.value → Varies (.literal i.text) (.literal j.text)

/-- **The text of pieces that are the same up to spelling determines them.**

**Proof sketch.** The first two pieces that differ are the two spellings of zero or of one, and
these begin with different letters. -/
theorem Piece.eq_of_join_eq {catalog : Catalog} {ps qs : List Piece}
    (h : List.Forall₂ Varies ps qs) (heq : join catalog ps = join catalog qs) : ps = qs := by
  induction h with
  | nil => rfl
  | cons hpiece _ ih =>
    simp only [join, List.map_cons, String.join_cons] at heq ih
    cases hpiece with
    | refl => rw [ih ((String.append_right_inj _).1 heq)]
    | ordinal hvalue =>
      obtain rfl := Ordinal.eq_of_text_append hvalue heq
      rw [ih ((String.append_right_inj _).1 heq)]

/-! ## Renderings -/

namespace Rendering

/-- Two renderings tell whether `P` holds: they are equal if it does.  In an exact setting both go
through, their pieces are the same up to spelling, and they are the same only if `P` holds. -/
structure Tells (exact P : Prop) (a b : Rendering) : Prop where
  eq : P → a = b
  stop_left : exact → a.stop = none
  stop_right : exact → b.stop = none
  varies : exact → List.Forall₂ Piece.Varies a.pieces b.pieces
  of_pieces : exact → a.pieces = b.pieces → P

namespace Tells

variable {exact P Q : Prop} {a b c d : Rendering}

/-- A rendering and itself tell nothing. -/
lemma refl (h : exact → a.stop = none) : Tells exact True a a where
  eq _ := rfl
  stop_left := h
  stop_right := h
  varies _ := List.forall₂_same.2 fun piece _ => .refl piece
  of_pieces _ _ := trivial

/-- What is told may be put in other words. -/
lemma congr (h : Tells exact P a b) (hPQ : P ↔ Q) : Tells exact Q a b where
  eq hQ := h.eq (hPQ.2 hQ)
  stop_left := h.stop_left
  stop_right := h.stop_right
  varies := h.varies
  of_pieces hexact heq := hPQ.1 (h.of_pieces hexact heq)

/-- The pieces of two renderings in a row, if the first one goes through. -/
lemma pieces_andThen (ha : a.stop = none) : (a >> c).pieces = a.pieces ++ c.pieces := by
  change (Rendering.andThen _ _).pieces = _
  rw [Rendering.andThen, ha]

/-- **Renderings in a row tell whether all that holds which they tell.** -/
theorem andThen (h : Tells exact P a b) (h' : Tells exact Q c d) :
    Tells exact (P ∧ Q) (a >> c) (b >> d) where
  eq := by
    rintro ⟨hP, hQ⟩
    rw [h.eq hP, h'.eq hQ]
  stop_left hexact := by rw [stop_andThen, h.stop_left hexact, h'.stop_left hexact]; rfl
  stop_right hexact := by rw [stop_andThen, h.stop_right hexact, h'.stop_right hexact]; rfl
  varies hexact := by
    rw [pieces_andThen (h.stop_left hexact), pieces_andThen (h.stop_right hexact)]
    exact List.rel_append (h.varies hexact) (h'.varies hexact)
  of_pieces hexact heq := by
    rw [pieces_andThen (h.stop_left hexact), pieces_andThen (h.stop_right hexact)] at heq
    obtain ⟨ha, hc⟩ := List.append_inj heq (h.varies hexact).length_eq
    exact ⟨h.of_pieces hexact ha, h'.of_pieces hexact hc⟩

/-- What stands in front of two renderings, and is the same, tells nothing more. -/
lemma behind (h : Tells exact P a b) (hc : exact → c.stop = none) :
    Tells exact P (c >> a) (c >> b) :=
  ((refl hc).andThen h).congr (by simp)

/-- Nor does what stands behind them. -/
lemma before (h : Tells exact P a b) (hc : exact → c.stop = none) :
    Tells exact P (a >> c) (b >> c) :=
  (h.andThen (refl hc)).congr (by simp)

/-- Several things tell whether that holds which each of them tells. -/
lemma separated {α : Type} (separator : String) {render render' : α → Rendering}
    {holds : α → Prop} {items : List α}
    (h : ∀ item ∈ items, Tells exact (holds item) (render item) (render' item)) :
    Tells exact (∀ item ∈ items, holds item) (Rendering.separated separator render items)
      (Rendering.separated separator render' items) := by
  induction items with
  | nil => exact (refl fun _ => rfl).congr (by simp)
  | cons item rest ih =>
    have hitem := h item List.mem_cons_self
    have hrest := ih fun item hi => h item (List.mem_cons_of_mem _ hi)
    cases rest with
    | nil => exact hitem.congr (by simp)
    | cons next rest =>
      refine (hitem.andThen (hrest.behind fun _ => ?_)).congr ?_
      · rfl
      · simp

/-- Where nothing is exact, only equality counts. -/
lemma of_not_exact (hexact : ¬ exact) (heq : P → a = b) : Tells exact P a b where
  eq := heq
  stop_left h := absurd h hexact
  stop_right h := absurd h hexact
  varies h := absurd h hexact
  of_pieces h := absurd h hexact

end Tells

end Rendering

/-! ## Types -/

/-- Every part of a well-formed type is displayed: no declaration has a nice name, and what is
around declarations goes through. -/
structure Scene.ShowsAll (scene : Scene) (around : Option SymId → Rendering) : Prop where
  niceName? : ∀ id, scene.niceName? id = none
  rooted : scene.graph.Rooted
  outermost : (around none).stop = none
  spaces : ∀ space, scene.graph.kind? space = some .space → (around (some space)).stop = none

namespace Scene

variable {scene : Scene} {around : Option SymId → Rendering}

/-- The displays of two types tell whether something holds, both with and without their own
brackets. -/
structure TellsApart (scene : Scene) (around : Option SymId → Rendering) (P : Prop) (t u : Ty) :
    Prop where
  base : (renderBase scene around t).Tells (scene.ShowsAll around) P (renderBase scene around u)
  brackets : DisplayNames.brackets t = DisplayNames.brackets u

namespace TellsApart

variable {P Q : Prop} {t u : Ty}

/-- The displays with brackets. -/
lemma ty (h : scene.TellsApart around P t u) :
    (renderTy scene around t).Tells (scene.ShowsAll around) P (renderTy scene around u) := by
  rw [renderTy, renderTy, h.brackets]
  exact h.base.before fun _ => stop_brackets u

/-- What is told may be put in other words. -/
lemma congr (h : scene.TellsApart around P t u) (hPQ : P ↔ Q) : scene.TellsApart around Q t u :=
  ⟨h.base.congr hPQ, h.brackets⟩

/-- A well-formed type and itself tell nothing. -/
lemma refl (ht : t.WellFormed scene.graph) : scene.TellsApart around True t t :=
  ⟨.refl fun hall => (stop_renderBase scene hall.rooted hall.outermost hall.spaces).1 t ht, rfl⟩

/-- Parameters without a name tell whether their indices are written alike. -/
lemma param {i j : Ordinal} (hvalue : i.value = j.value) (m : Bool) :
    scene.TellsApart around (i = j) (.param i m none) (.param j m none) := by
  have hindex : (Rendering.literal i.text).Tells (scene.ShowsAll around) (i = j)
      (.literal j.text) := by
    refine ⟨fun h => h ▸ rfl, fun _ => rfl, fun _ => rfl, fun _ => ?_, fun _ heq => ?_⟩
    · exact .cons (.ordinal hvalue) .nil
    · have htext : i.text = j.text := Piece.literal.inj (List.cons.inj heq).1
      exact Ordinal.eq_of_text_append hvalue (congrArg (· ++ "") htext)
  exact ⟨hindex.behind fun _ => rfl, rfl⟩

lemma array (h : scene.TellsApart around P t u) (rank : Ordinal) (vector : Bool) :
    scene.TellsApart around P (.array t rank vector) (.array u rank vector) :=
  ⟨h.base, by rw [DisplayNames.brackets, DisplayNames.brackets, h.brackets]⟩

lemma pointer (h : scene.TellsApart around P t u) :
    scene.TellsApart around P (.pointer t) (.pointer u) := by
  refine ⟨?_, rfl⟩
  rw [renderBase, renderBase, ← Rendering.andThen_assoc, ← Rendering.andThen_assoc]
  exact h.ty.before fun _ => rfl

lemma nullable (h : scene.TellsApart around P t u) :
    scene.TellsApart around P (.nullable t) (.nullable u) := by
  refine ⟨?_, rfl⟩
  rw [renderBase, renderBase, ← Rendering.andThen_assoc, ← Rendering.andThen_assoc]
  exact h.ty.before fun _ => rfl

lemma byRef (h : scene.TellsApart around P t u) (out : Bool) :
    scene.TellsApart around P (.byRef t out) (.byRef u out) :=
  ⟨h.ty.behind fun _ => rfl, rfl⟩

/-- Type arguments in angle brackets. -/
lemma args {f f' : Ty → Ty} {holds : Ty → Prop} {ts : List Ty}
    (h : ∀ t ∈ ts, scene.TellsApart around (holds t) (f t) (f' t)) :
    (angled (ts.map f) fun _ => renderArgs scene around (ts.map f)).Tells (scene.ShowsAll around)
      (∀ t ∈ ts, holds t) (angled (ts.map f') fun _ => renderArgs scene around (ts.map f')) := by
  have hargs : (renderArgs scene around (ts.map f)).Tells (scene.ShowsAll around)
      (∀ t ∈ ts, holds t) (renderArgs scene around (ts.map f')) := by
    rw [renderArgs_eq_separated, renderArgs_eq_separated, Rendering.separated_map,
      Rendering.separated_map]
    exact .separated "," fun t ht => (h t ht).ty
  cases ts with
  | nil => exact (Rendering.Tells.refl fun _ => rfl).congr (by simp)
  | cons t rest => exact (hargs.before fun _ => rfl).behind fun _ => rfl

/-- Instantiations of one aggregate tell what their arguments and their enclosing instantiations
tell.

**Proof sketch.** An aggregate with a nice name shows nothing of its arguments, but then not
everything is shown.  Otherwise what stands in front of the name is either the same on both sides
or the enclosing instantiation, and the arguments are displayed behind it. -/
theorem inst {decl : SymId} {ts : List Ty} {outer : Option Inst} {f f' : Ty → Ty}
    {k k' : Inst → Inst} {holds : Ty → Prop} {holdsIn : Inst → Prop}
    (hinst : (Inst.mk decl ts outer).WellFormed scene.graph)
    (hargs : ∀ t ∈ ts, scene.TellsApart around (holds t) (f t) (f' t))
    (houter : ∀ i, outer = some i → (renderInst scene around (k i)).Tells (scene.ShowsAll around)
      (holdsIn i) (renderInst scene around (k' i))) :
    (renderInst scene around (.mk decl (ts.map f) (outer.map k))).Tells (scene.ShowsAll around)
      ((∀ i, outer = some i → holdsIn i) ∧ ∀ t ∈ ts, holds t)
      (renderInst scene around (.mk decl (ts.map f') (outer.map k'))) := by
  rw [renderInst, renderInst]
  cases hnice : scene.niceName? decl with
  | some nice =>
    refine .of_not_exact (fun hall => ?_) fun _ => rfl
    rw [hall.niceName? decl] at hnice
    cases hnice
  | none =>
    have hrest := (args hargs).behind fun _ =>
      stop_nameText ((scene.graph.find? decl).bind Symbol.name)
    cases outer with
    | none =>
      have haround (hall : scene.ShowsAll around) :
          (around ((scene.graph.find? decl).bind Symbol.parent)).stop = none := by
        have hstop := (stop_renderBase scene hall.rooted hall.outermost hall.spaces).2 _ hinst
        simp only [renderInst, hnice, Rendering.stop_andThen, Option.or_eq_none_iff] at hstop
        exact hstop.1
      exact (hrest.behind haround).congr (by simp)
    | some outer =>
      exact (((houter outer rfl).before fun _ => rfl).andThen hrest).congr (by simp)

/-- Unresolved types with the same name and in the same namespace tell what their parents and their
arguments tell. -/
theorem error {parent : Option Ty} {space : Option SymId} {name : Option String}
    {ts : Option (List Ty)} {f f' : Ty → Ty} {holds : Ty → Prop}
    (ht : (Ty.error parent space name ts).WellFormed scene.graph)
    (hparent : ∀ t, parent = some t → scene.TellsApart around (holds t) (f t) (f' t))
    (hargs : ∀ us, ts = some us → ∀ t ∈ us, scene.TellsApart around (holds t) (f t) (f' t)) :
    scene.TellsApart around
      ((∀ t, parent = some t → holds t) ∧ ∀ us, ts = some us → ∀ t ∈ us, holds t)
      (.error (parent.map f) space name (ts.map (List.map f)))
      (.error (parent.map f') space name (ts.map (List.map f'))) := by
  refine ⟨?_, rfl⟩
  cases ht with
  | unresolved => exact (Rendering.Tells.refl fun _ => rfl).congr (by simp)
  | @errorInType parent name us _ _ =>
    have hrest := (args (hargs us rfl)).behind fun _ => stop_nameText (some name)
    have hfront := (hparent parent rfl).ty.before (c := .literal ".") fun _ => rfl
    simp only [renderTy, Rendering.andThen_assoc] at hfront
    exact (hfront.andThen hrest).congr (by simp)
  | @errorInSpace space name us hspace _ =>
    have hrest := (args (hargs us rfl)).behind fun _ => stop_nameText (some name)
    exact (hrest.behind fun hall => hall.spaces space hspace).congr (by simp)

end TellsApart

end Scene

end DisplayNames
