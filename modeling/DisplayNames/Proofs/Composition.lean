import DisplayNames.Proofs.TypeTraversal

/-!
# Composition of contexts

Composing contexts composes their replacements.  Up to the spelling of ordinals a composed context
is the plain one: the entries of the inner context under the outer one, and behind them what the
outer one has at further positions.  For the plain contexts the laws are equations between lists,
read off position by position.

## Main definitions

* `DisplayNames.overlay` — a list with a second one behind its length.
* `DisplayNames.Context.after` — the plain composition.
* `DisplayNames.Context.same` — equality of contexts, entry by entry.

## Main results

* `DisplayNames.Ty.rebuild_after` — the plain composition composes plain replacements.
* `DisplayNames.Context.after_assoc` — the plain composition is associative.
* `DisplayNames.Context.compose_composes` — composition of contexts is composition of
  substitutions, and the contexts form a monoid under it.
-/

set_option relaxedAutoImplicit false
set_option autoImplicit false

namespace DisplayNames

/-! ## Overlays -/

/-- The images of the first list, and behind them the second list from the next position on. -/
def overlay {α : Type} (f : α → α) (front back : List α) : List α :=
  front.map f ++ back.drop front.length

/-- A position is read in the first list if it reaches that far, else in the second. -/
lemma getElem?_overlay {α : Type} (f : α → α) (front back : List α) (k : Nat) :
    (overlay f front back)[k]? = (front[k]?.map f).or back[k]? := by
  unfold overlay
  rcases Nat.lt_or_ge k front.length with h | h
  · rw [List.getElem?_append_left (by simpa using h), List.getElem?_map,
      List.getElem?_eq_getElem h]
    rfl
  · rw [List.getElem?_append_right (by simpa using h), List.length_map, List.getElem?_drop,
      show front.length + (k - front.length) = k by omega, List.getElem?_eq_none h]
    rfl

/-- Overlays associate, if the second function of the front composes the other two. -/
lemma overlay_assoc {α : Type} (f g : α → α) (xs ys zs : List α) :
    overlay (f ∘ g) zs (overlay f ys xs) = overlay f (overlay g zs ys) xs := by
  apply List.ext_getElem?
  intro k
  simp only [getElem?_overlay]
  cases zs[k]? with
  | none => rfl
  | some z => rfl

/-! ## The plain composition -/

namespace Context

/-- The plain composition: `inner` first and `outer` then. -/
def after (outer inner : Context) : Context :=
  ⟨overlay (Ty.rebuild outer) inner.ofType outer.ofType,
    overlay (Ty.rebuild outer) inner.ofMethod outer.ofMethod⟩

/-- A position that `inner` covers has the replaced entry of `inner`; any other one that of
`outer`. -/
lemma find?_after (outer inner : Context) (i : Ordinal) (m : Bool) :
    (outer.after inner).find? i m =
      ((inner.find? i m).map (Ty.rebuild outer)).or (outer.find? i m) := by
  unfold find?
  by_cases h : i.value < 0
  · simp [h]
  · cases m <;> simp [h, after, getElem?_overlay]

end Context

/-- The plain composition composes the plain replacements. -/
theorem Ty.rebuild_after (outer inner : Context) (t : Ty) :
    t.rebuild (outer.after inner) = (t.rebuild inner).rebuild outer := by
  unfold rebuild
  rw [(Ty.bind_bind _ _ _ _).1]
  congr 1
  funext i m n
  rw [Context.find?_after]
  cases inner.find? i m with
  | none => rfl
  | some t => rfl

namespace Context

/-- The plain composition is associative. -/
theorem after_assoc (a b c : Context) : (a.after b).after c = a.after (b.after c) := by
  have h : Ty.rebuild (a.after b) = Ty.rebuild a ∘ Ty.rebuild b :=
    funext fun t => Ty.rebuild_after a b t
  unfold after
  rw [mk.injEq]
  constructor
  · exact h ▸ overlay_assoc (Ty.rebuild a) (Ty.rebuild b) a.ofType b.ofType c.ofType
  · exact h ▸ overlay_assoc (Ty.rebuild a) (Ty.rebuild b) a.ofMethod b.ofMethod c.ofMethod

/-! ## Composition -/

/-- Equality of contexts: their entries are equal types, position by position. -/
def same (a b : Context) : Bool :=
  Ty.sameAll a.ofType b.ofType && Ty.sameAll a.ofMethod b.ofMethod

/-- Contexts are equal if they agree up to the spelling of ordinals. -/
lemma same_iff_spelled (a b : Context) : a.same b = true ↔ a.spelled = b.spelled := by
  have h (ts us : List Ty) : Ty.sameAll ts us = true ↔ ts.map Ty.spelled = us.map Ty.spelled :=
    Ty.sameAll_iff_of_forall (fun t _ => Ty.same_iff_spelled.1 t) us
  rw [same, Bool.and_eq_true, h, h, spelled, spelled, mk.injEq]

/-- A context composed behind one that covers nothing, or in front of one, keeps its entries. -/
lemma after_of_isNop {e : Context} (h : e.isNop = true) (a : Context) :
    e.after a = a ∧ a.after e = a := by
  obtain ⟨ofType, ofMethod⟩ := e
  simp only [isNop, Bool.and_eq_true, List.isEmpty_iff] at h
  obtain ⟨rfl, rfl⟩ := h
  have hid : Ty.rebuild ⟨[], []⟩ = id := funext fun t => Ty.rebuild_of_isNop rfl t
  simp [after, overlay, hid]

/-- A context that covers something is composed by overlaying its entries. -/
lemma compose_of_not_isNop {outer inner : Context} (ho : outer.isNop = false)
    (hi : inner.isNop = false) :
    outer.compose inner =
      ⟨overlay (Ty.subst (some outer)) inner.ofType outer.ofType,
        overlay (Ty.subst (some outer)) inner.ofMethod outer.ofMethod⟩ := by
  simp [compose, ho, hi, overlay, Ty.substAll]

/-- Up to the spelling of ordinals the composition is the plain one. -/
lemma spelled_compose (outer inner : Context) :
    (outer.compose inner).spelled = outer.spelled.after inner.spelled := by
  cases hi : inner.isNop with
  | true =>
    rw [(after_of_isNop (by rw [isNop_spelled, hi]) _).2, compose, if_pos hi]
  | false =>
    cases ho : outer.isNop with
    | true =>
      rw [(after_of_isNop (by rw [isNop_spelled, ho]) _).1, compose, if_neg (by simp [hi]),
        if_pos ho]
    | false =>
      have hlist (xs ys : List Ty) :
          (overlay (Ty.subst (some outer)) xs ys).map Ty.spelled =
            overlay (Ty.rebuild outer.spelled) (xs.map Ty.spelled) (ys.map Ty.spelled) := by
        simp [overlay, Ty.spelled_subst]
      rw [compose_of_not_isNop ho hi, spelled, after, hlist, hlist]
      rfl

/-- **Composition of contexts is composition of substitutions**: the composed context has the
effect of the inner one followed by the outer one.  Contexts form a monoid under it, in which every
context that covers nothing is a unit.  Types and contexts are compared by their own equality,
which disregards how ordinals are spelled.

**Proof sketch.** Equality is equality of spelled types.  A spelled substitution is a plain
replacement and a spelled composition the plain composition, for which the three laws are
`Ty.rebuild_after`, `Context.after_assoc` and `Context.after_of_isNop`. -/
theorem compose_composes :
    (∀ (t : Ty) (outer inner : Context),
      (t.subst (some (outer.compose inner))).same
        ((t.subst (some inner)).subst (some outer)) = true) ∧
    (∀ a b c : Context, ((a.compose b).compose c).same (a.compose (b.compose c)) = true) ∧
    ∀ e a : Context, e.isNop = true →
      (e.compose a).same a = true ∧ (a.compose e).same a = true := by
  refine ⟨fun t outer inner => ?_, fun a b c => ?_, fun e a he => ?_⟩
  · rw [Ty.same_iff_spelled.1, Ty.spelled_subst, Ty.spelled_subst, Ty.spelled_subst,
      spelled_compose, Ty.rebuild_after]
  · simp only [same_iff_spelled, spelled_compose, after_assoc]
  · have hnop : e.spelled.isNop = true := by rw [isNop_spelled, he]
    simp only [same_iff_spelled, spelled_compose]
    exact after_of_isNop hnop a.spelled

/-- A context of two and one entries behind a context of one and none: the composition covers the
positions of both, its first entry is the inner one with its parameter replaced, and the rest falls
through to the outer context.  A type with parameters at each of these positions is replaced in two
steps as in one.  A third context that covers only a position of the other kind associates, and the
context without entries is a unit on either side. -/
theorem compose_composes_lengths :
    (Context.mk [.void, .null] [.pointer .void]).compose
        ⟨[.pointer (.param (.number 1) false none)], []⟩ =
      ⟨[.pointer .null, .null], [.pointer .void]⟩ ∧
      ((Ty.error none none "E" (some [.param (.truth false) false none,
          .param (.number 1) false none, .param (.number 0) true none])).subst
        (some ((Context.mk [.void, .null] [.pointer .void]).compose
          ⟨[.pointer (.param (.number 1) false none)], []⟩))).same
        (((Ty.error none none "E" (some [.param (.truth false) false none,
            .param (.number 1) false none, .param (.number 0) true none])).subst
          (some ⟨[.pointer (.param (.number 1) false none)], []⟩)).subst
          (some ⟨[.void, .null], [.pointer .void]⟩)) = true ∧
      (((Context.mk [.void, .null] [.pointer .void]).compose
          ⟨[.pointer (.param (.number 1) false none)], []⟩).compose
          ⟨[], [.param (.number 0) false none]⟩).same
        ((Context.mk [.void, .null] [.pointer .void]).compose
          ((Context.mk [.pointer (.param (.number 1) false none)] []).compose
            ⟨[], [.param (.number 0) false none]⟩)) = true ∧
      (Context.mk [] []).isNop = true ∧
      ((Context.mk [] []).compose
          ⟨[.array (.param (.truth true) false none) (.number 2) false], [.null]⟩).same
        ⟨[.array (.param (.truth true) false none) (.number 2) false], [.null]⟩ = true ∧
      ((Context.mk [.array (.param (.truth true) false none) (.number 2) false] [.null]).compose
          ⟨[], []⟩).same
        ⟨[.array (.param (.truth true) false none) (.number 2) false], [.null]⟩ = true :=
  ⟨rfl, compose_composes.1 _ _ _, compose_composes.2.1 _ _ _, rfl,
    compose_composes.2.2 ⟨[], []⟩
      ⟨[.array (.param (.truth true) false none) (.number 2) false], [.null]⟩ rfl⟩

end Context

end DisplayNames
