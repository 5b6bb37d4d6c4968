import DisplayNames.Proofs.DirectWriting

/-!
# Swapping catalogs

A catalog replaces canned phrases and nothing else.  For everything that can be rendered over a
graph with some nice names there is one list of pieces, literal texts and phrases, or one fault; the
catalog in use decides only what stands in the text for the phrases among the pieces.  So no catalog
can make a request fail or succeed, and none leaves other traces in a renderer.

## Main definitions

* `DisplayNames.Rendering.outcome` — the pieces of a rendering, or its fault.
* `DisplayNames.Piece.join` — the text of pieces under a catalog.

## Main results

* `DisplayNames.Renderer.render_outcome_eq` — a request comes to pieces before it comes to a text.
* `DisplayNames.Renderer.catalog_swap` — catalogs can be swapped.
-/

set_option relaxedAutoImplicit false
set_option autoImplicit false

namespace DisplayNames

/-- The pieces of a rendering that went through, or the reason why it did not. -/
def Rendering.outcome (r : Rendering) : Except Fault (List Piece) :=
  match r.stop with
  | none => .ok r.pieces
  | some fault => .error fault

/-- The text of pieces under a catalog. -/
def Piece.join (catalog : Catalog) (pieces : List Piece) : String :=
  String.join (pieces.map (Piece.text catalog))

/-- The catalog is applied to the pieces last. -/
lemma Rendering.finish_eq_outcome (r : Rendering) (catalog : Catalog) :
    r.finish catalog = r.outcome.map (Piece.join catalog) := by
  unfold finish outcome
  cases r.stop <;> rfl

namespace Renderer

variable {g : Graph}

/-- A request of a closed renderer with a sound memo comes to the pieces that the graph and the nice
names determine, or to their fault. -/
theorem render_outcome_eq {r : Renderer} (hr : r.session.isOpen = false) (hmemo : r.memo.Sound g)
    (display : Display) (subject : Subject) :
    (r.render g display subject).1 =
      (subject.rendering ⟨g, display.niceNames, g.signatureBogus⟩).outcome.map
        (Piece.join display.catalog) := by
  rw [render_fst hr, Memo.sound_iff.1 hmemo, Rendering.finish_eq_outcome]

/-- What a request leaves behind does not depend on the catalog. -/
lemma render_snd_eq (r : Renderer) (niceNames : NiceNames) (catalog catalog' : Catalog)
    (subject : Subject) :
    (r.render g ⟨catalog, niceNames⟩ subject).2 = (r.render g ⟨catalog', niceNames⟩ subject).2 := by
  unfold render
  split <;> rfl

/-- **A message catalog can be swapped without any other effect.**  For everything that can be
rendered over a graph with some nice names there is one list of pieces, or one fault.  Under every
catalog the text is that of the pieces in a row, with each phrase as the catalog has it, or the
request fails with the fault; what the request leaves behind is the same under all catalogs.  This
holds for the walk that looks up each phrase when it comes to it.

**Proof sketch.** To write a display name comes to the same as to collect its pieces, and the pieces
are collected without a catalog. -/
theorem catalog_swap (g : Graph) (niceNames : NiceNames) (subject : Subject) :
    ∃ outcome : Except Fault (List Piece), ∀ (catalog : Catalog) (r : Renderer),
      r.session.isOpen = false → r.memo.Sound g →
        (r.render g ⟨catalog, niceNames⟩ subject).1 = outcome.map (Piece.join catalog) ∧
        (r.renderDirectly g ⟨catalog, niceNames⟩ subject).1 = outcome.map (Piece.join catalog) ∧
        ∀ catalog', (r.renderDirectly g ⟨catalog', niceNames⟩ subject).2 =
          (r.renderDirectly g ⟨catalog, niceNames⟩ subject).2 := by
  refine ⟨(subject.rendering ⟨g, niceNames, g.signatureBogus⟩).outcome,
    fun catalog r hr hmemo => ?_⟩
  have hrender := render_outcome_eq hr hmemo ⟨catalog, niceNames⟩ subject
  refine ⟨hrender, ?_, fun catalog' => ?_⟩
  · rw [renderDirectly_eq, hrender]
  · rw [renderDirectly_eq, renderDirectly_eq]
    exact r.render_snd_eq niceNames catalog' catalog subject

/-- A pointer to `void`, under the built-in texts and under a catalog that makes an array of the
word. -/
theorem catalog_swap_void :
    ({} : Renderer).session.isOpen = false ∧ ({} : Renderer).memo.Sound .empty ∧
      ∃ outcome : Except Fault (List Piece),
        (({} : Renderer).render .empty ⟨MessageId.default, []⟩ (.type (.pointer .void) none)).1 =
          outcome.map (Piece.join MessageId.default) ∧
        (({} : Renderer).render .empty ⟨fun _ => "int[]", []⟩ (.type (.pointer .void) none)).1 =
          outcome.map (Piece.join fun _ => "int[]") ∧
        outcome.map (Piece.join MessageId.default) = .ok "void*" ∧
        outcome.map (Piece.join fun _ => "int[]") = .ok "int[]*" := by
  have hclosed : ({} : Renderer).session.isOpen = false := rfl
  have hmemo : ({} : Renderer).memo.Sound .empty := .empty .empty
  obtain ⟨outcome, houtcome⟩ := catalog_swap .empty [] (.type (.pointer .void) none)
  obtain ⟨hplain, _, _⟩ := houtcome MessageId.default {} hclosed hmemo
  obtain ⟨hother, _, _⟩ := houtcome (fun _ => "int[]") {} hclosed hmemo
  exact ⟨hclosed, hmemo, outcome, hplain, hother, hplain.symm, hother.symm⟩

end Renderer

end DisplayNames
