import DisplayNames.Proofs.NestedGraph
import DisplayNames.Proofs.WalkBound

/-!
# Renderings that go through

Well-formed types are displayed without a fault, provided that the namespaces around their
declarations are.  Namespaces and aggregates are displayed by going outwards, so a bound above their
depth suffices; hence what stands in front of a symbol is displayed without a fault as soon as the
bound reaches the size of the graph.

## Main definitions

* `DisplayNames.Scene.Passes` — classes of contexts under which symbols and types go through.

## Main results

* `DisplayNames.stop_renderTy` — well-formed types go through.
* `DisplayNames.Scene.stop_plainUpTo` — namespaces and aggregates go through.
* `DisplayNames.Scene.stop_enclosing` — so does what stands in front of a symbol.
* `DisplayNames.Scene.passes_wellFormed` — well-formed contexts are kept along slots.
-/

set_option relaxedAutoImplicit false
set_option autoImplicit false

namespace DisplayNames

/-! ## Pieces -/

@[simp] lemma stop_nameText (name : Option String) : (nameText name).stop = none := rfl

@[simp] lemma stop_typeParamText (name : Option String) (index : Ordinal) (ofMethod : Bool) :
    (typeParamText name index ofMethod).stop = none := by
  cases name <;> simp [typeParamText]

@[simp] lemma stop_bracket (rank : Int) (vector : Bool) : (bracket rank vector).stop = none := by
  by_cases h : rank = 1 <;> cases vector <;> simp [bracket, h]

/-- The brackets of an array go through. -/
@[simp] lemma stop_brackets (t : Ty) : (brackets t).stop = none := by
  unfold brackets
  split
  · rename_i element _ _
    simp [stop_brackets element]
  · rfl

/-- What stands in angle brackets stops where its inside does, unless there is none. -/
@[simp] lemma stop_angled {α : Type} (items : List α) (inside : Unit → Rendering) :
    (angled items inside).stop = if items.isEmpty then none else (inside ()).stop := by
  unfold angled
  split <;> simp

/-- Parameters go through if each of their types does. -/
lemma stop_paramTypes {type : Ty → Rendering} (paramArray : Bool) {ts : List Ty}
    (h : ∀ t ∈ ts, (type t).stop = none) : (paramTypes type paramArray ts).stop = none := by
  induction ts with
  | nil => rfl
  | cons t rest ih =>
    have ht := h t List.mem_cons_self
    have hrest := ih fun t ht => h t (List.mem_cons_of_mem _ ht)
    cases rest with
    | nil =>
      unfold paramTypes
      split <;> simp [ht]
    | cons next rest => simp [paramTypes, ht, hrest]

/-- The parameters of a signature go through if each of their types does. -/
lemma stop_paramList {type : Ty → Rendering} {ts : List Ty} (varargs paramArray : Bool)
    (h : ∀ t ∈ ts, (type t).stop = none) : (paramList type ts varargs paramArray).stop = none := by
  have hparams := stop_paramTypes paramArray h
  cases varargs <;> by_cases hempty : ts.isEmpty <;> simp [paramList, hparams, hempty]

/-! ## Types -/

/-- A symbol that no aggregate surrounds is in a namespace. -/
lemma Graph.Rooted.space_of_outermost {g : Graph} (h : g.Rooted) {id : SymId}
    (hnone : g.outerAggregate? id = none) {s : Symbol} (hs : g.find? id = some s)
    {parent : SymId} (hparent : s.parent = some parent) : g.kind? parent = some .space := by
  obtain ⟨around, haround, henc, _⟩ := h.parent_of_eq hs hparent
  have hne := (outerAggregate?_eq_none hs hparent).1 hnone
  rw [kind?, haround, Option.map_some] at hne ⊢
  rcases SymbolKind.outer_of_encloses henc with hspace | haggregate
  · rw [hspace]
  · exact absurd (congrArg some haggregate) hne

section

variable (scene : Scene) (h : scene.graph.Rooted) {around : Option SymId → Rendering}
  (hnone : (around none).stop = none)
  (haround : ∀ space, scene.graph.kind? space = some .space → (around (some space)).stop = none)
include h hnone haround

/-- Well-formed types and instantiations go through, if the namespaces around declarations do.

**Proof sketch.** Induction over well-formed types and instantiations.  What is put together from
parts that go through goes through.  The only other things to be displayed are namespaces around
declarations, and an aggregate that no other one encloses lies in one. -/
lemma stop_renderBase :
    (∀ t : Ty, t.WellFormed scene.graph → (renderBase scene around t).stop = none) ∧
      ∀ inst : Inst, inst.WellFormed scene.graph → (renderInst scene around inst).stop = none := by
  have hargs {ts : List Ty} (hts : ∀ t ∈ ts, (renderBase scene around t).stop = none) :
      (renderArgs scene around ts).stop = none := by
    rw [renderArgs_eq_separated]
    exact Rendering.stop_separated "," _ fun t ht => by simp [renderTy, hts t ht]
  apply Ty.WellFormed.induction_parts
  case aggregate => exact fun _ _ ih => ih
  case array => exact fun _ _ _ _ _ ih => ih
  case param => intros; simp [renderBase]
  case pointer =>
    intro referent _ ih
    simp [renderBase, ih]
  case nullable =>
    intro underlying _ ih
    simp [renderBase, ih]
  case byRef =>
    intro target out _ ih
    simp [renderBase, ih]
  case errorInType =>
    intro parent name args _ _ hp has
    simp [renderBase, errorText, hp, hargs has]
  case errorInSpace =>
    intro space name args hspace _ has
    simp [renderBase, errorText, haround _ hspace, hargs has]
  case outermost =>
    intro decl args hdecl houter _ has
    unfold renderInst
    split
    · rfl
    · obtain ⟨s, hs, _⟩ := Option.map_eq_some_iff.1 hdecl
      have hparent : (around ((scene.graph.find? decl).bind Symbol.parent)).stop = none := by
        rw [hs, Option.bind_some]
        cases hparent : s.parent with
        | none => exact hnone
        | some parent => exact haround _ (h.space_of_outermost houter hs hparent)
      simp [hparent, hargs has]
  case inside =>
    intro decl args outer _ _ _ has ho
    unfold renderInst
    split
    · rfl
    · simp [ho, hargs has]
  all_goals rfl

/-- **Well-formed types go through**, if the namespaces around declarations do. -/
theorem stop_renderTy {t : Ty} (ht : t.WellFormed scene.graph) :
    (renderTy scene around t).stop = none := by
  simp [renderTy, (stop_renderBase scene h hnone haround).1 t ht]

end

/-! ## Symbols around a symbol -/

namespace Scene

variable {scene : Scene}

/-- Without a context the symbols around a symbol are displayed as they are. -/
lemma enclosing_none (symbol : SymId → Rendering) (parent : Option SymId) :
    scene.enclosing symbol none parent = scene.around symbol parent := by
  cases parent <;> rfl

variable (h : scene.graph.Nested)
include h

/-- **Namespaces and aggregates go through without a context**, if the bound exceeds their depth.

**Proof sketch.** Induction on the bound.  The parent of a namespace or an aggregate is of one of
these kinds and lies closer to the root, and the parameters of an aggregate are displayed by
name. -/
theorem stop_plainUpTo {bound : Nat} {id : SymId} {s : Symbol} (hs : scene.graph.find? id = some s)
    (hkind : s.kind = .space ∨ s.kind = .aggregate) (hb : id.steps.length < bound) :
    (scene.plainUpTo bound id).stop = none := by
  induction bound generalizing id s with
  | zero => omega
  | succ bound ih =>
    have hparent : (scene.around (scene.plainUpTo bound) s.parent).stop = none := by
      unfold around
      split
      · rfl
      · rename_i parent hparent
        split
        · rfl
        · obtain ⟨around, haround, henc, hlt⟩ := h.parent_of_eq hs hparent
          simp [ih haround (SymbolKind.outer_of_encloses henc) (by omega)]
    unfold plainUpTo
    cases hd : s.detail with
    | space =>
      rw [symbolUpTo_space hs hd]
      split
      · rfl
      · simp [hparent]
    | aggregate a =>
      rw [symbolUpTo_aggregate hs hd, enclosing_none]
      split
      · rfl
      · obtain ⟨parent, names, _, hvars⟩ := h.typeVars hs hd
        have hparams : (Rendering.separated "," (scene.typeUpTo bound none) a.typeVars).stop =
            none := by
          refine Rendering.stop_separated "," _ fun t ht => ?_
          rw [hvars] at ht
          obtain ⟨_, _, rfl⟩ := List.mem_mapIdx.1 ht
          simp [typeUpTo, Ty.subst, renderTy, renderBase]
        simp [hparent, hparams]
    | _ => simp_all [Symbol.kind, Detail.kind]

variable {bound : Nat} (hb : scene.graph.size ≤ bound)
include hb

/-- Namespaces and aggregates go through in front of what they enclose, if the bound reaches the
size of the graph. -/
lemma stop_around_outer {id : SymId} {s : Symbol} (hs : scene.graph.find? id = some s)
    (hkind : s.kind = .space ∨ s.kind = .aggregate) :
    (scene.around (scene.plainUpTo bound) (some id)).stop = none := by
  have hdepth := h.depth hs
  unfold around
  dsimp only
  split
  · rfl
  · simp [stop_plainUpTo h hs hkind (by omega : id.steps.length < bound)]

/-- Namespaces go through in front of a declaration, if the bound reaches the size of the graph. -/
lemma stop_around_space {space : SymId} (hspace : scene.graph.kind? space = some .space) :
    (scene.around (scene.plainUpTo bound) (some space)).stop = none := by
  obtain ⟨s, hs, hkind⟩ := Option.map_eq_some_iff.1 hspace
  exact stop_around_outer h hb hs (.inl hkind)

/-- Well-formed types go through under well-formed contexts. -/
lemma stop_typeUpTo {ctx : Option Context} (hctx : ∀ c ∈ ctx, c.WellFormed scene.graph) {t : Ty}
    (ht : t.WellFormed scene.graph) : (scene.typeUpTo bound ctx t).stop = none :=
  stop_renderTy scene h.toRooted rfl (fun _ hspace => stop_around_space h hb hspace)
    (ht.subst hctx)

/-- What stands in front of a symbol goes through if enclosing types do as the context instantiates
them. -/
lemma stop_enclosing_of_shown {ctx : Option Context}
    (hshown : ∀ c ∈ ctx, ∀ parent this, scene.graph.thisInst? parent = some this →
      (renderInst scene (scene.around (scene.plainUpTo bound)) (this.subst (some c))).stop = none)
    {id : SymId} {s : Symbol} (hs : scene.graph.find? id = some s) :
    (scene.enclosing (scene.plainUpTo bound) ctx s.parent).stop = none := by
  unfold enclosing
  split
  · rfl
  · rename_i parent hparent
    obtain ⟨around, haround, henc, _⟩ := h.parent_of_eq hs hparent
    have hdepth := h.depth haround
    have hplain := stop_plainUpTo h haround (SymbolKind.outer_of_encloses henc)
      (by omega : parent.steps.length < bound)
    split
    · rfl
    · dsimp only
      split
      · rename_i inst hinst
        obtain ⟨c, hc, hinst⟩ := Option.bind_eq_some_iff.1 hinst
        obtain ⟨hc, _⟩ := Option.filter_eq_some_iff.1 hc
        obtain ⟨this, hthis, rfl⟩ := Option.map_eq_some_iff.1 hinst
        simp [hshown c hc parent this hthis]
      · simp [hplain]

/-- **What stands in front of a symbol goes through under well-formed contexts.** -/
theorem stop_enclosing {ctx : Option Context} (hctx : ∀ c ∈ ctx, c.WellFormed scene.graph)
    {id : SymId} {s : Symbol} (hs : scene.graph.find? id = some s) :
    (scene.enclosing (scene.plainUpTo bound) ctx s.parent).stop = none := by
  refine stop_enclosing_of_shown h hb (fun c hc parent this hthis => ?_) hs
  have hwf : (this.subst (some c)).WellFormed scene.graph :=
    (h.thisInst?_wellFormed parent this hthis).subst (by simpa using hctx c hc)
  exact (stop_renderBase scene h.toRooted rfl
    (fun _ hspace => stop_around_space h hb hspace)).2 _ hwf

omit h hb

/-- A class of contexts under which all that stands in front of symbols and all well-formed types go
through, if the bound reaches the size of the graph.  The contexts of slots are in the class
again. -/
structure Passes (scene : Scene) (P : Option Context → Prop) : Prop where
  enclosing {ctx : Option Context} (hctx : P ctx) {bound : Nat} (hb : scene.graph.size ≤ bound)
    {id : SymId} {s : Symbol} (hs : scene.graph.find? id = some s) :
    (scene.enclosing (scene.plainUpTo bound) ctx s.parent).stop = none
  type {ctx : Option Context} (hctx : P ctx) {bound : Nat} (hb : scene.graph.size ≤ bound) {t : Ty}
    (ht : t.WellFormed scene.graph) : (scene.typeUpTo bound ctx t).stop = none
  slot {ctx : Option Context} (hctx : P ctx) {on : Option Inst}
    (hon : ∀ inst ∈ on, inst.WellFormed scene.graph) : P (some (slotContext on ctx))

include h in
/-- The well-formed contexts are such a class. -/
theorem passes_wellFormed : scene.Passes fun ctx => ∀ c ∈ ctx, c.WellFormed scene.graph where
  enclosing hctx _ hb _ _ hs := stop_enclosing h hb hctx hs
  type hctx _ hb _ ht := stop_typeUpTo h hb hctx ht
  slot hctx _ hon := by
    rintro _ ⟨rfl⟩
    exact .slotContext hon hctx

end Scene

end DisplayNames
