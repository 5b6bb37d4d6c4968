import DisplayNames.Proofs.TypeLayers

/-!
# Lawful types

The types that keep the invariants of their own form: what is instantiated is an aggregate of the
graph, an unresolved type has a name and arguments exactly if it has a parent, and nothing lies
outside the closed set.  Every well-formed type is lawful, but a lawful one need not be the type of
a document: ranks and positions may be anything, and an instantiation of a nested aggregate may lack
the enclosing one.

Lawful types are all that display needs.  They go through under lawful contexts, which are kept by
the walk from a symbol to its slot.

## Main definitions

* `DisplayNames.Ty.Lawful` — every part of the type keeps the invariants of its form.
* `DisplayNames.Context.Lawful` — contexts of lawful types.

## Main results

* `DisplayNames.Ty.WellFormed.lawful` — well-formed types are lawful.
* `DisplayNames.Ty.Lawful.subst` — substitution keeps types lawful.
* `DisplayNames.stop_renderTy_of_lawful` — lawful types go through.
* `DisplayNames.Scene.passes_lawful` — so does what stands in front of a symbol under lawful
  contexts.
-/

set_option relaxedAutoImplicit false
set_option autoImplicit false

namespace DisplayNames

/-! ## The invariants of a form -/

/-- The type keeps the invariants of its own form, whatever is inside it. -/
def Ty.LawfulLayer (g : Graph) : Ty → Prop
  | .aggregate inst => g.kind? inst.decl = some .aggregate
  | .error parent space name args =>
    (∀ id ∈ space, g.kind? id = some .space) ∧
      if parent.isSome ∨ space.isSome then name.isSome ∧ args.isSome else args = none
  | .unknown _ => False
  | _ => True

/-- Every part of the type keeps the invariants of its form. -/
def Ty.Lawful (g : Graph) (t : Ty) : Prop := ∀ u ∈ t.parts, u.LawfulLayer g

/-- All types of the context are lawful. -/
def Context.Lawful (g : Graph) (ctx : Context) : Prop :=
  (∀ t ∈ ctx.ofType, t.Lawful g) ∧ ∀ t ∈ ctx.ofMethod, t.Lawful g

variable {g : Graph}

/-- A type is lawful if it keeps the invariants of its form and the types directly inside it are
lawful. -/
lemma Ty.lawful_iff {t : Ty} :
    t.Lawful g ↔ t.LawfulLayer g ∧ ∀ u ∈ t.children, u.Lawful g := by
  simp only [Lawful, parts_eq t, List.forall_mem_cons, List.forall_mem_flatMap]

/-- The layers of a well-formed type keep their invariants. -/
lemma Ty.WellFormed.lawfulLayer {t : Ty} (ht : t.WellFormed g) : t.LawfulLayer g := by
  cases ht with
  | aggregate hinst => cases hinst <;> assumption
  | errorInSpace hspace => simpa [LawfulLayer] using hspace
  | _ => simp [LawfulLayer]

/-- **Well-formed types are lawful.** -/
theorem Ty.WellFormed.lawful {t : Ty} (ht : t.WellFormed g) : t.Lawful g := by
  induction t using Ty.induction_children with
  | h t ih => exact lawful_iff.2 ⟨ht.lawfulLayer, fun u hu => ih u hu (ht.of_mem_children hu)⟩

/-- Well-formed contexts are lawful. -/
lemma Context.WellFormed.lawful {ctx : Context} (h : ctx.WellFormed g) : ctx.Lawful g :=
  ⟨fun t ht => (h.1 t ht).lawful, fun t ht => (h.2 t ht).lawful⟩

/-- The arguments of all levels of a lawful instantiation are lawful. -/
lemma Inst.lawful_argsAll :
    ∀ {inst : Inst}, (Ty.aggregate inst).Lawful g → ∀ t ∈ inst.argsAll, t.Lawful g
  | .mk _ _ none, h, t, ht =>
    (Ty.lawful_iff.1 h).2 t (Ty.mem_children_aggregate.2 (.inr ht))
  | .mk _ _ (some outer), h, t, ht => by
    have hinside := (Ty.lawful_iff.1 h).2
    rw [argsAll, List.mem_append] at ht
    rcases ht with ht | ht
    · exact lawful_argsAll (hinside _ (Ty.mem_children_aggregate.2 (.inl ⟨outer, rfl, rfl⟩))) t ht
    · exact hinside t (Ty.mem_children_aggregate.2 (.inr ht))

/-! ## Substitution -/

/-- What is directly inside a type with its insides replaced. -/
lemma Ty.children_mapChildren (t : Ty) {f : Ty → Ty} {k : Inst → Inst}
    (hf : ∀ i, f (.aggregate i) = .aggregate (k i)) :
    (t.mapChildren f k).children = t.children.map f := by
  cases t with
  | aggregate inst =>
    obtain ⟨decl, args, outer⟩ := inst
    cases outer <;> simp [mapChildren, children, Inst.outer, Inst.args, hf]
  | error parent space name args => cases parent <;> cases args <;> simp [mapChildren, children]
  | _ => rfl

/-- A form keeps its invariants when what is inside is replaced. -/
lemma Ty.LawfulLayer.mapChildren {t : Ty} (ht : t.LawfulLayer g) (f : Ty → Ty) (k : Inst → Inst) :
    (t.mapChildren f k).LawfulLayer g := by
  cases t with
  | aggregate inst =>
    obtain ⟨decl, args, outer⟩ := inst
    exact ht
  | error parent space name args => simpa [LawfulLayer, Ty.mapChildren] using ht
  | _ => exact ht

/-- The entry of a lawful context for a position is lawful. -/
lemma Context.Lawful.find? {ctx : Context} (h : ctx.Lawful g) {i : Ordinal} {m : Bool} {t : Ty}
    (ht : ctx.find? i m = some t) : t.Lawful g := by
  unfold Context.find? at ht
  split at ht
  · cases ht
  · cases m with
    | false => exact h.1 t (List.mem_of_getElem? (by simpa using ht))
    | true => exact h.2 t (List.mem_of_getElem? (by simpa using ht))

/-- Replacing parameters by lawful types keeps a type lawful. -/
lemma Ty.Lawful.replace {ctx : Context} (hctx : ctx.Lawful g) {t : Ty} (ht : t.Lawful g) :
    (t.replace ctx).Lawful g := by
  induction t using Ty.induction_children with
  | h t ih =>
    by_cases hparam : t.IsParam
    · obtain ⟨i, m, n, rfl⟩ := hparam
      rw [Ty.replace]
      cases hfind : ctx.find? i m with
      | none => exact ht
      | some entry => exact hctx.find? hfind
    · rw [replace_eq_ite hparam]
      split
      · exact ht
      · have hf (i : Inst) : Ty.replace ctx (.aggregate i) = .aggregate (i.replace ctx) := by
          rw [Ty.replace]
        obtain ⟨hlayer, hchildren⟩ := lawful_iff.1 ht
        refine lawful_iff.2 ⟨hlayer.mapChildren _ _, ?_⟩
        rw [children_mapChildren t hf, List.forall_mem_map]
        exact fun u hu => ih u hu (hchildren u hu)

/-- Substitution keeps a type lawful. -/
theorem Ty.Lawful.subst {ctx : Option Context} (h : ∀ c ∈ ctx, c.Lawful g) {t : Ty}
    (ht : t.Lawful g) : (t.subst ctx).Lawful g := by
  cases ctx with
  | none => exact ht
  | some c =>
    unfold Ty.subst
    dsimp only
    split
    · exact ht
    · exact ht.replace (h c rfl)

/-- The context of a slot on a lawful interface is lawful. -/
lemma Context.Lawful.slotContext {on : Option Inst} {ctx : Option Context}
    (hon : ∀ inst ∈ on, (Ty.aggregate inst).Lawful g) (h : ∀ c ∈ ctx, c.Lawful g) :
    (DisplayNames.slotContext on ctx).Lawful g := by
  refine ⟨?_, by simp [DisplayNames.slotContext, Context.ofInst]⟩
  cases on with
  | none => simp [DisplayNames.slotContext, Context.ofInst]
  | some inst =>
    have hsubst : (Ty.aggregate (inst.subst ctx)).Lawful g :=
      Ty.subst_aggregate ctx inst ▸ (hon inst rfl).subst h
    exact Inst.lawful_argsAll hsubst

/-! ## Renderings -/

section

variable {scene : Scene} (h : scene.graph.Rooted) {around : Option SymId → Rendering}
  (hnone : (around none).stop = none)
  (haround : ∀ id s, scene.graph.find? id = some s → (s.kind = .space ∨ s.kind = .aggregate) →
    (around (some id)).stop = none)

/-- Type arguments go through if each of them does. -/
lemma stop_renderArgs {ts : List Ty} (hts : ∀ t ∈ ts, (renderTy scene around t).stop = none) :
    (renderArgs scene around ts).stop = none := by
  rw [renderArgs_eq_separated]
  exact Rendering.stop_separated "," _ hts

include h hnone haround

/-- An instantiation of an aggregate goes through if the arguments and the enclosing instantiation
do: without one, what surrounds the aggregate is displayed. -/
lemma stop_renderInst {decl : SymId} {args : List Ty} {outer : Option Inst}
    (hdecl : scene.graph.kind? decl = some .aggregate)
    (hargs : ∀ t ∈ args, (renderTy scene around t).stop = none)
    (houter : ∀ inst ∈ outer, (renderInst scene around inst).stop = none) :
    (renderInst scene around (.mk decl args outer)).stop = none := by
  have hinside := stop_renderArgs hargs
  rw [renderInst]
  split
  · rfl
  · cases outer with
    | some outer => simp [houter outer rfl, hinside]
    | none =>
      obtain ⟨s, hs, _⟩ := Option.map_eq_some_iff.1 hdecl
      have hparent : (around ((scene.graph.find? decl).bind Symbol.parent)).stop = none := by
        rw [hs, Option.bind_some]
        cases hparent : s.parent with
        | none => exact hnone
        | some parent =>
          obtain ⟨surrounding, hfound, henc, _⟩ := h.parent_of_eq hs hparent
          exact haround parent surrounding hfound (SymbolKind.outer_of_encloses henc)
      simp [hparent, hinside]

omit h hnone in
/-- An unresolved type that keeps its invariants goes through if its parent and its arguments do.

**Proof sketch.** The invariants say that a type with a parent or a namespace has a name and
arguments, and that one with neither has nothing at all.  So no form is left in which the text of
the type is missing. -/
lemma stop_renderBase_error {parent : Option Ty} {space : Option SymId} {name : Option String}
    {args : Option (List Ty)} (hlayer : (Ty.error parent space name args).LawfulLayer scene.graph)
    (hparent : ∀ t ∈ parent, (renderTy scene around t).stop = none)
    (hargs : ∀ ts ∈ args, ∀ t ∈ ts, (renderTy scene around t).stop = none) :
    (renderBase scene around (.error parent space name args)).stop = none := by
  obtain ⟨hspace, hform⟩ := hlayer
  split at hform
  · rename_i hqualified
    obtain ⟨hname, hsome⟩ := hform
    obtain ⟨name, rfl⟩ := Option.isSome_iff_exists.1 hname
    obtain ⟨ts, rfl⟩ := Option.isSome_iff_exists.1 hsome
    have hinside := stop_renderArgs (hargs ts rfl)
    cases parent with
    | some parent =>
      have hfront : (renderBase scene around parent).stop = none := by
        simpa [renderTy] using hparent parent rfl
      simp [renderBase, errorText, hfront, hinside]
    | none =>
      obtain ⟨id, rfl⟩ := Option.isSome_iff_exists.1 (hqualified.resolve_left (by simp))
      obtain ⟨s, hs, hkind⟩ := Option.map_eq_some_iff.1 (hspace id rfl)
      simp [renderBase, errorText, haround id s hs (.inl hkind), hinside]
  · rename_i hfree
    obtain ⟨hfree, hfree'⟩ := not_or.1 hfree
    obtain rfl := Option.not_isSome_iff_eq_none.1 hfree
    obtain rfl := Option.not_isSome_iff_eq_none.1 hfree'
    subst hform
    simp [renderBase, errorText]

/-- **Lawful types go through**, if the namespaces and aggregates around declarations do.

**Proof sketch.** Induction over the types directly inside.  Each layer goes through around what
goes through, where the invariants exclude an unresolved type without a text and types outside the
closed set. -/
theorem stop_renderTy_of_lawful {t : Ty} (ht : t.Lawful scene.graph) :
    (renderTy scene around t).stop = none := by
  induction t using Ty.induction_children with
  | h t ih =>
    obtain ⟨hlayer, hchildren⟩ := Ty.lawful_iff.1 ht
    have ih (u : Ty) (hu : u ∈ t.children) : (renderTy scene around u).stop = none :=
      ih u hu (hchildren u hu)
    have hbase (u : Ty) (hu : u ∈ t.children) : (renderBase scene around u).stop = none := by
      simpa [renderTy] using ih u hu
    simp only [renderTy, Rendering.stop_andThen, stop_brackets, Option.or_none]
    cases t with
    | aggregate inst =>
      obtain ⟨decl, args, outer⟩ := inst
      rw [renderBase]
      refine stop_renderInst h hnone haround hlayer
        (fun t ht => ih t (Ty.mem_children_aggregate.2 (.inr ht))) fun inst hinst => ?_
      simpa [renderBase] using hbase _ (Ty.mem_children_aggregate.2 (.inl ⟨inst, hinst, rfl⟩))
    | param => simp [renderBase]
    | array element rank vector => exact hbase element List.mem_cons_self
    | pointer referent => simp [renderBase, hbase referent List.mem_cons_self]
    | nullable underlying => simp [renderBase, hbase underlying List.mem_cons_self]
    | byRef target out => simp [renderBase, hbase target List.mem_cons_self]
    | error parent space name args =>
      refine stop_renderBase_error haround hlayer (fun t ht => ih t ?_) fun ts hts t ht => ih t ?_
      · exact List.mem_append_left _ (Option.mem_toList.2 ht)
      · rw [Option.mem_def] at hts
        exact List.mem_append_right _ (by rw [hts]; exact ht)
    | unknown tag => exact hlayer.elim
    | _ => rfl

end

/-! ## Contexts -/

namespace Scene

variable {scene : Scene} (h : scene.graph.Nested)
include h

/-- Lawful types go through, if the bound reaches the size of the graph. -/
lemma stop_renderTy_plain {bound : Nat} (hb : scene.graph.size ≤ bound) {t : Ty}
    (ht : t.Lawful scene.graph) :
    (renderTy scene (scene.around (scene.plainUpTo bound)) t).stop = none :=
  stop_renderTy_of_lawful h.toRooted rfl (fun _ _ hs hkind => stop_around_outer h hb hs hkind) ht

/-- **Under lawful contexts what stands in front of symbols and all well-formed types go through**,
and the contexts of slots are lawful again. -/
theorem passes_lawful : scene.Passes fun ctx => ∀ c ∈ ctx, c.Lawful scene.graph where
  enclosing hctx bound hb _ _ hs := by
    refine stop_enclosing_of_shown h hb (fun c hc parent this hthis => ?_) hs
    have hlawful : ((Ty.aggregate this).subst (some c)).Lawful scene.graph :=
      (Ty.WellFormed.aggregate (h.thisInst?_wellFormed parent this hthis)).lawful.subst
        (by simpa using hctx c hc)
    rw [Ty.subst_aggregate] at hlawful
    simpa [renderTy, renderBase] using stop_renderTy_plain h hb hlawful
  type hctx _ hb _ ht := stop_renderTy_plain h hb (ht.lawful.subst hctx)
  slot hctx on hon := by
    rintro _ ⟨rfl⟩
    exact .slotContext (fun inst hinst => (Ty.WellFormed.aggregate (hon inst hinst)).lawful) hctx

end Scene

end DisplayNames
