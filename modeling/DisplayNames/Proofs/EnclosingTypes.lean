import DisplayNames.Proofs.RequestOutcome
import Mathlib.Tactic.Lemma

/-!
# Enclosing types

An aggregate is displayed in two ways: as a symbol, by going outwards, and as a type, instantiated
over its own parameters.  Under every context the two give the same text, and this text is what
stands in front of the members of the aggregate.

Replacing the parameters of an instantiation gives the instantiation back if nothing changes but the
spelling of ordinals.  This makes no difference here, because the parameters of a declaration have
names and are displayed by them.

## Main definitions

* `DisplayNames.Inst.Named` — instantiations over named parameters.

## Main results

* `DisplayNames.Scene.symbolUpTo_eq_instUpTo` — aggregates are displayed as their types.
* `DisplayNames.Scene.enclosing_eq_instUpTo` — so is what stands in front of their members.
* `DisplayNames.Document.render_aggregate` — the agreement of the two for accepted documents.
-/

set_option relaxedAutoImplicit false
set_option autoImplicit false

namespace DisplayNames

/-! ## Instantiations over named parameters -/

/-- A parameter with a name. -/
def Ty.NamedParam (t : Ty) : Prop := ∃ index ofMethod name, t = .param index ofMethod (some name)

/-- The arguments of all levels are parameters with a name. -/
def Inst.Named (inst : Inst) : Prop := ∀ t ∈ inst.argsAll, t.NamedParam

/-- The parameters of a list of names are named. -/
lemma typeParams_named (first : Nat) (ofMethod : Bool) (names : List String) :
    ∀ t ∈ typeParams first ofMethod (names.map some), t.NamedParam := by
  intro t ht
  obtain ⟨i, hi, rfl⟩ := List.mem_mapIdx.1 ht
  exact ⟨.number (first + i : Nat), ofMethod, names.get ⟨i, by simpa using hi⟩, by simp⟩

/-- The arguments of an aggregate over its own parameters are the parameters of all levels. -/
lemma Graph.argsAll_of_thisInst? {g : Graph} {id : SymId} {inst : Inst}
    (hinst : g.thisInst? id = some inst) : inst.argsAll = g.typeVarsAll id := by
  have hlevels : ∀ (levels : List (SymId × Aggregate)) (inst : Inst),
      instOfLevels levels = some inst →
        inst.argsAll = levels.reverse.flatMap fun level => level.2.typeVars := by
    intro levels
    induction levels with
    | nil => intro inst h; simp [instOfLevels] at h
    | cons level outer ih =>
      intro inst h
      rw [instOfLevels, Option.some.injEq] at h
      subst h
      cases ho : instOfLevels outer with
      | none =>
        cases outer with
        | nil => simp [Inst.argsAll]
        | cons => simp [instOfLevels] at ho
      | some i => simp [Inst.argsAll, ih i ho]
  exact hlevels _ inst hinst

/-- The parameters of all levels have names. -/
lemma Graph.Nested.typeVarsAll_named {g : Graph} (h : g.Nested) (id : SymId) :
    ∀ t ∈ g.typeVarsAll id, t.NamedParam := by
  obtain ⟨names, hnames⟩ := h.typeVarsAll_eq_typeParams id
  rw [hnames]
  exact typeParams_named 0 false names

section

variable (scene : Scene) (around : Option SymId → Rendering)

/-- Several things that are made from other things. -/
lemma Rendering.separated_map {α β : Type} (separator : String) (render : β → Rendering)
    (f : α → β) (items : List α) :
    separated separator render (items.map f) = separated separator (render ∘ f) items := by
  induction items with
  | nil => rfl
  | cons item rest ih =>
    cases rest with
    | nil => rfl
    | cons next rest =>
      simp only [List.map_cons, separated] at ih ⊢
      rw [ih]
      rfl

/-- What is spelled like named parameters is displayed like them.

**Proof sketch.** A named parameter is displayed by its name, whatever the spelling of its
position, and a type that is spelled like it has the same name.  So the lists are displayed alike
item by item. -/
lemma renderArgs_of_spelled {args args' : List Ty}
    (hnamed : ∀ t ∈ args, t.NamedParam) (h : args'.map Ty.spelled = args.map Ty.spelled) :
    renderArgs scene around args' = renderArgs scene around args := by
  have hone {t t' : Ty} (ht : t.NamedParam) (hspelled : t'.spelled = t.spelled) :
      renderTy scene around t' = renderTy scene around t := by
    obtain ⟨index, ofMethod, name, rfl⟩ := ht
    cases t' <;> simp [Ty.spelled, Ty.bind] at hspelled
    obtain ⟨_, rfl, rfl⟩ := hspelled
    rfl
  have hmap : args'.map (renderTy scene around) = args.map (renderTy scene around) := by
    induction args generalizing args' with
    | nil => simpa using h
    | cons t rest ih =>
      cases args' with
      | nil => simp at h
      | cons t' rest' =>
        rw [List.map_cons, List.map_cons, List.cons.injEq] at h ⊢
        exact ⟨hone (hnamed t List.mem_cons_self) h.1,
          ih (fun t ht => hnamed t (List.mem_cons_of_mem _ ht)) h.2⟩
  have hsep (ts : List Ty) : renderArgs scene around ts =
      .separated "," id (ts.map (renderTy scene around)) := by
    rw [renderArgs_eq_separated, Rendering.separated_map]
    rfl
  rw [hsep, hsep, hmap]

/-- Instantiations of one aggregate are displayed alike if their arguments and their enclosing
instantiations are. -/
lemma renderInst_congr_parts {decl : SymId} {args args' : List Ty} {outer outer' : Option Inst}
    (hempty : args'.isEmpty = args.isEmpty)
    (hargs : renderArgs scene around args' = renderArgs scene around args)
    (houter : outer'.map (renderInst scene around) = outer.map (renderInst scene around)) :
    renderInst scene around (.mk decl args' outer') =
      renderInst scene around (.mk decl args outer) := by
  simp only [renderInst, angled, hempty, hargs]
  cases outer <;> cases outer' <;> simp_all

/-- What is spelled like an instantiation over named parameters is displayed like it.

**Proof sketch.** Recursion along the enclosing instantiations.  At each level the declaration is
the same and the arguments are displayed alike. -/
lemma renderInst_of_spelled : ∀ (inst inst' : Inst), inst.Named → inst'.spelled = inst.spelled →
    renderInst scene around inst' = renderInst scene around inst
  | .mk decl args outer, .mk decl' args' outer', hnamed, h => by
    simp only [Inst.spelled_mk, Inst.mk.injEq] at h
    obtain ⟨rfl, hargs, houter⟩ := h
    have hempty : args'.isEmpty = args.isEmpty := by
      simpa using congrArg List.isEmpty hargs
    cases outer with
    | none =>
      cases outer' with
      | none =>
        exact renderInst_congr_parts scene around hempty
          (renderArgs_of_spelled scene around
            (by simpa [Inst.Named, Inst.argsAll] using hnamed) hargs)
          rfl
      | some i' => simp at houter
    | some i =>
      cases outer' with
      | none => simp at houter
      | some i' =>
        rw [Option.map_some, Option.map_some, Option.some.injEq] at houter
        have hi : i.Named := fun t ht =>
          hnamed t (by rw [Inst.argsAll]; exact List.mem_append_left _ ht)
        have hown : ∀ t ∈ args, t.NamedParam := fun t ht =>
          hnamed t (by rw [Inst.argsAll]; exact List.mem_append_right _ ht)
        exact renderInst_congr_parts scene around hempty
          (renderArgs_of_spelled scene around hown hargs)
          (congrArg some (renderInst_of_spelled i i' hi houter))

/-- Under a context an instantiation over named parameters is displayed level by level. -/
lemma renderInst_replace {decl : SymId} {args : List Ty} {outer : Option Inst}
    (hnamed : (Inst.mk decl args outer).Named) (ctx : Context) :
    renderInst scene around ((Inst.mk decl args outer).replace ctx) =
      renderInst scene around
        (.mk decl (args.map (Ty.replace ctx)) (outer.map (Inst.replace ctx))) := by
  rw [Inst.replace_mk]
  dsimp only
  split
  · rename_i hsame
    exact (renderInst_of_spelled scene around _ _ hnamed ((Ty.same_iff_spelled.2 _ _).1 hsame)).symm
  · rfl

/-- An instantiation without arguments is not changed by a context. -/
lemma Inst.replace_of_argsAll_eq_nil (ctx : Context) :
    ∀ (inst : Inst), inst.argsAll = [] → inst.replace ctx = inst
  | .mk decl args none, h => by
    have hargs : args = [] := by simpa [argsAll] using h
    subst hargs
    rw [replace_mk]
    simp
  | .mk decl args (some outer), h => by
    obtain ⟨houter, hargs⟩ := List.append_eq_nil_iff.1 h
    subst hargs
    rw [replace_mk]
    simp [replace_of_argsAll_eq_nil ctx outer houter]

end

/-! ## Aggregates as types -/

namespace Scene

variable {scene : Scene} (h : scene.graph.Nested)

/-- An instantiation in front of which symbols are displayed by walks of at most `bound` symbols. -/
def instUpTo (scene : Scene) (bound : Nat) (inst : Inst) : Rendering :=
  renderInst scene (scene.around (scene.plainUpTo bound)) inst

include h

/-- Namespaces and aggregates are displayed alike under all bounds above their depth. -/
lemma plainUpTo_eq {id : SymId} {s : Symbol} (hs : scene.graph.find? id = some s)
    (hkind : s.kind = .space ∨ s.kind = .aggregate) {bound bound' : Nat}
    (hb : id.steps.length < bound) (hle : bound ≤ bound') :
    scene.plainUpTo bound id = scene.plainUpTo bound' id := by
  rcases scene.symbolUpTo_refines hle id none true with hendless | heq
  · have hstop := stop_plainUpTo h hs hkind hb
    rw [plainUpTo, hendless] at hstop
    simp at hstop
  · exact heq

/-- What stands in front of the members of an aggregate is the aggregate as the context instantiates
it, if the aggregate without a context is displayed as its type.

**Proof sketch.** The context only has an effect if it covers something and there are parameters
around the member.  Otherwise the aggregate is displayed without it, which is the same, since there
is nothing to replace or nothing to put in. -/
lemma enclosing_of_parent {bound : Nat} {parent : SymId}
    (hparent : ∀ inst, scene.graph.thisInst? parent = some inst →
      scene.plainUpTo bound parent = scene.instUpTo bound inst) (ctx : Option Context) :
    scene.enclosing (scene.plainUpTo bound) ctx (some parent) =
      match scene.graph.thisInst? parent with
      | some inst => scene.instUpTo bound (inst.subst ctx) >> .literal "."
      | none => scene.around (scene.plainUpTo bound) (some parent) := by
  cases hthis : scene.graph.thisInst? parent with
  | none => simp [enclosing, Scene.around, hthis]
  | some inst =>
    have hroot : parent ≠ scene.graph.root := by
      rintro rfl
      obtain ⟨s, a, _, hs, ha, _⟩ := h.cases_of_thisInst? hthis
      rw [h.root_eq, h.root_symbol, Option.some.injEq] at hs
      simp [← hs] at ha
    unfold enclosing
    dsimp only
    rw [if_neg hroot, hparent inst hthis, hthis]
    cases ctx with
    | none => rfl
    | some c =>
      cases hnop : c.isNop with
      | true => simp [Option.filter, hnop, Inst.subst]
      | false =>
        cases hempty : (scene.graph.typeVarsAll parent).isEmpty with
        | true =>
          have hargs : inst.argsAll = [] := by
            rw [Graph.argsAll_of_thisInst? hthis, List.isEmpty_iff.1 hempty]
          simp [Option.filter, hnop, Inst.subst, Inst.replace_of_argsAll_eq_nil c inst hargs]
        | false => simp [Option.filter, hnop, instUpTo]

/-- Under a context an aggregate over its own parameters is displayed level by level.

**Proof sketch.** Without a context, and under one that covers nothing, both sides are the same.
Otherwise substitution gives back what it does not change, and over named parameters that is
displayed like what it is made of. -/
lemma instUpTo_subst (bound : Nat) {id : SymId} {inst : Inst}
    (hthis : scene.graph.thisInst? id = some inst) (ctx : Option Context) :
    scene.instUpTo bound (inst.subst ctx) = scene.instUpTo bound
      (.mk inst.decl (inst.args.map (Ty.subst ctx)) (inst.outer.map (Inst.subst ctx))) := by
  obtain ⟨decl, args, outer⟩ := inst
  cases ctx with
  | none =>
    have htypes : Ty.subst none = fun t => t := rfl
    have hinsts : Inst.subst none = fun i => i := rfl
    simp [Inst.decl, Inst.args, Inst.outer, htypes, hinsts]
  | some c =>
    cases hnop : c.isNop with
    | true =>
      have htypes : Ty.subst (some c) = fun t => t := funext fun t => if_pos hnop
      have hinsts : Inst.subst (some c) = fun i => i := funext fun i => if_pos hnop
      simp [Inst.decl, Inst.args, Inst.outer, htypes, hinsts]
    | false =>
      have htypes : Ty.subst (some c) = Ty.replace c := funext fun t => if_neg (by simp [hnop])
      have hinsts : Inst.subst (some c) = Inst.replace c := funext fun i => if_neg (by simp [hnop])
      have hnamed : (Inst.mk decl args outer).Named := by
        rw [Inst.Named, Graph.argsAll_of_thisInst? hthis]
        exact h.typeVarsAll_named id
      rw [htypes, hinsts]
      exact renderInst_replace scene _ hnamed c

/-- An aggregate is displayed as its type, if what stands in front of it is. -/
lemma symbolUpTo_of_enclosing {bound : Nat} {id parent : SymId} {s : Symbol} {a : Aggregate}
    (hs : scene.graph.find? id = some s) (ha : s.detail = .aggregate a)
    (hparent : s.parent = some parent) {ctx : Option Context} (args : Bool)
    (henclosing : scene.enclosing (scene.plainUpTo bound) ctx (some parent) =
      match scene.graph.thisInst? parent with
      | some inst => scene.instUpTo bound (inst.subst ctx) >> .literal "."
      | none => scene.around (scene.plainUpTo bound) (some parent)) :
    scene.symbolUpTo (bound + 1) id ctx args =
      scene.instUpTo bound ((Inst.mk id a.typeVars (scene.graph.thisInst? parent)).subst ctx) := by
  have hthis := h.thisInst?_eq hs ha hparent
  have hargs : renderArgs scene (scene.around (scene.plainUpTo bound))
      (a.typeVars.map (Ty.subst ctx)) =
        .separated "," (scene.typeUpTo bound ctx) a.typeVars := by
    rw [renderArgs_eq_separated, Rendering.separated_map]
    rfl
  rw [instUpTo_subst h bound hthis, symbolUpTo_aggregate hs ha, instUpTo, renderInst]
  simp only [Inst.decl, Inst.args, Inst.outer, hargs, hparent, henclosing, angled,
    List.isEmpty_map, hs, Option.bind_some]
  cases scene.graph.thisInst? parent <;> rfl

/-- **An aggregate is displayed as its type under every context**, if the bound reaches the size of
the graph.

**Proof sketch.** Induction on the depth of the aggregate.  By induction the enclosing aggregate is
displayed as its type without a context, and under a context it is displayed as its type by
definition. -/
theorem symbolUpTo_eq_instUpTo {bound : Nat} (hb : scene.graph.size ≤ bound) {id : SymId}
    {inst : Inst} (hthis : scene.graph.thisInst? id = some inst) (ctx : Option Context)
    (args : Bool) :
    scene.symbolUpTo (bound + 1) id ctx args = scene.instUpTo bound (inst.subst ctx) := by
  induction hn : id.steps.length using Nat.strongRecOn generalizing id inst ctx args with
  | _ n ih =>
    obtain ⟨s, a, parent, hs, ha, hparent, rfl⟩ := h.cases_of_thisInst? hthis
    obtain ⟨around, haround, henc, hlt⟩ := h.parent_of_eq hs hparent
    have hdepth := h.depth haround
    refine symbolUpTo_of_enclosing h hs ha hparent args (enclosing_of_parent h (fun i hi => ?_) ctx)
    rw [plainUpTo_eq h haround (SymbolKind.outer_of_encloses henc)
      (by omega : parent.steps.length < bound) (Nat.le_succ bound)]
    exact ih parent.steps.length (hn ▸ hlt) hi none true rfl

/-- **What stands in front of the members of an aggregate is its type under the context.** -/
theorem enclosing_eq_instUpTo {bound : Nat} (hb : scene.graph.size ≤ bound) {id : SymId}
    {inst : Inst} (hthis : scene.graph.thisInst? id = some inst) (ctx : Option Context) :
    scene.enclosing (scene.plainUpTo bound) ctx (some id) =
      (scene.instUpTo bound (inst.subst ctx) >> .literal ".") := by
  obtain ⟨s, a, _, hs, ha, _⟩ := h.cases_of_thisInst? hthis
  have hdepth := h.depth hs
  rw [enclosing_of_parent h (fun i hi => ?_) ctx, hthis]
  rw [plainUpTo_eq h hs (.inr (Symbol.kind_eq_aggregate.2 ⟨a, ha⟩))
    (by omega : id.steps.length < bound) (Nat.le_succ bound)]
  exact symbolUpTo_eq_instUpTo h hb hi none true

end Scene

/-! ## The agreement for accepted documents -/

/-- The members that are displayed behind the aggregate that declares them: fields, properties,
methods other than accessors of events, and aggregates without a nice name of their own. -/
def Symbol.Qualified (s : Symbol) (niceName : Option String) : Prop :=
  match s.detail with
  | .field => True
  | .property _ => True
  | .method m => m.event = none
  | .aggregate _ => niceName = none
  | _ => False

namespace Scene

variable {scene : Scene} (h : scene.graph.Loaded)
include h

omit h in
/-- The bound on walks leaves room for a step in front of a walk that is long enough. -/
lemma walkBound_eq_succ (scene : Scene) :
    ∃ n, scene.walkBound = n + 1 ∧ 2 * scene.graph.size < n :=
  ⟨2 * scene.graph.size + 999, rfl, by omega⟩

/-- Instantiations are displayed alike under all bounds above twice the size of the graph. -/
lemma instUpTo_agrees {bound bound' : Nat} (hb : 2 * scene.graph.size < bound)
    (hle : bound ≤ bound') (inst : Inst) :
    (scene.instUpTo bound inst).Agrees (scene.instUpTo bound' inst) :=
  (renderBase_congr scene Rendering.Agrees.congruence
    (scene.around_congr Rendering.Agrees.congruence fun parent =>
      symbolUpTo_agrees h hb hle parent (by simp) true)).2 inst

omit h in
/-- An instantiation as a type is displayed as an instantiation. -/
lemma type_aggregate (inst : Inst) (ctx : Option Context) :
    scene.type (.aggregate inst) ctx = scene.instUpTo scene.walkBound (inst.subst ctx) := by
  rw [Scene.type, Ty.subst_aggregate]
  simp [renderTy, renderBase, brackets, instUpTo]
  rfl

omit h in
/-- A property is displayed behind what stands in front of it. -/
lemma symbolUpTo_of_property {bound : Nat} {id : SymId} {s : Symbol}
    (hs : scene.graph.find? id = some s) {p : Property} (hd : s.detail = .property p)
    (ctx : Option Context) (args : Bool) :
    ∃ rest, scene.symbolUpTo (bound + 1) id ctx args =
      (scene.enclosing (scene.plainUpTo bound) ctx s.parent >> rest) := by
  cases ht : p.impl.target? with
  | some target => exact ⟨_, symbolUpTo_property_slot hs hd ht⟩
  | none => exact ⟨_, symbolUpTo_property hs hd ht⟩

/-- A member that is displayed behind its aggregate is displayed behind what stands in front of it,
on a walk that is at most two steps shorter.

**Proof sketch.** The first step displays the member behind what stands in front of it, with one
exception.  An accessor of a property is displayed by way of the property, which is in the same
aggregate and is displayed behind it in the second step. -/
lemma symbol_of_qualified {id : SymId} {s : Symbol} (hs : scene.graph.find? id = some s)
    (hqualified : s.Qualified (scene.niceName? id)) (ctx : Option Context) (args : Bool) :
    ∃ bound rest, 2 * scene.graph.size < bound ∧ bound ≤ scene.walkBound ∧
      scene.symbol id ctx args =
        (scene.enclosing (scene.plainUpTo bound) ctx s.parent >> rest) := by
  obtain ⟨n, hn⟩ : ∃ n, scene.walkBound = n + 1 + 1 := ⟨2 * scene.graph.size + 998, rfl⟩
  have hlarge : 2 * scene.graph.size < n := by unfold walkBound at hn; omega
  have hone : 2 * scene.graph.size < n + 1 := by omega
  unfold symbol
  rw [hn]
  unfold Symbol.Qualified at hqualified
  cases hd : s.detail with
  | field => exact ⟨n + 1, _, hone, Nat.le_succ _, symbolUpTo_field hs hd⟩
  | aggregate a =>
    simp only [hd] at hqualified
    refine ⟨n + 1, nameText s.name >> angled a.typeVars fun _ =>
      .separated "," (scene.typeUpTo (n + 1) ctx) a.typeVars, hone, Nat.le_succ _, ?_⟩
    rw [symbolUpTo_aggregate hs hd, hqualified]
  | property p =>
    obtain ⟨rest, hrest⟩ := symbolUpTo_of_property hs hd ctx args
    exact ⟨n + 1, rest, hone, Nat.le_succ _, hrest⟩
  | method m =>
    simp only [hd] at hqualified
    cases ht : m.impl.target? with
    | some target => exact ⟨n + 1, _, hone, Nat.le_succ _, symbolUpTo_method_slot hs hd ht⟩
    | none =>
      cases hp : m.property with
      | none => exact ⟨n + 1, _, hone, Nat.le_succ _, symbolUpTo_method hs hd ht hp hqualified⟩
      | some owner =>
        -- the property of an accessor has the same parent
        obtain ⟨_, _, s', p, hs', hd', hparent, _⟩ := (h.method hs hd).property hp
        obtain ⟨rest, hrest⟩ := symbolUpTo_of_property hs' hd' ctx true
        refine ⟨n, rest >> scene.propertyRole id s.name owner, hlarge, by omega, ?_⟩
        rw [symbolUpTo_method_property hs hd ht hp, hrest, hparent, Rendering.andThen_assoc]
  | _ => simp [hd] at hqualified

section

variable {id : SymId} {inst : Inst} (hthis : scene.graph.thisInst? id = some inst)
  (ctx : Option Context) (args : Bool) (catalog : Catalog)
include hthis

omit hthis in
/-- A large bound does not change what an aggregate as a type comes to. -/
lemma finish_instUpTo {bound : Nat} (hb : 2 * scene.graph.size < bound)
    (hle : bound ≤ scene.walkBound) :
    (scene.instUpTo bound (inst.subst ctx)).finish catalog =
      (scene.type (.aggregate inst) ctx).finish catalog := by
  rw [type_aggregate]
  exact (instUpTo_agrees h hb hle _).finish_eq catalog

/-- An aggregate as a symbol comes to what it comes to as a type. -/
lemma finish_symbol :
    (scene.symbol id ctx args).finish catalog =
      (scene.type (.aggregate inst) ctx).finish catalog := by
  obtain ⟨n, hn, hlarge⟩ := scene.walkBound_eq_succ
  rw [← finish_instUpTo h ctx catalog hlarge (by omega), symbol, hn,
    symbolUpTo_eq_instUpTo h.toNested (by omega) hthis]

/-- A member that is displayed behind its aggregate begins with the text of the aggregate as a type
and a point. -/
lemma finish_of_qualified {member : SymId} {s : Symbol}
    (hs : scene.graph.find? member = some s) (hparent : s.parent = some id)
    (hqualified : s.Qualified (scene.niceName? member)) {text : String}
    (htext : (scene.symbol member ctx args).finish catalog = .ok text) :
    ∃ own rest, (scene.type (.aggregate inst) ctx).finish catalog = .ok own ∧
      text = own ++ "." ++ rest := by
  obtain ⟨bound, rest, hb, hle, hmember⟩ := symbol_of_qualified h hs hqualified ctx args
  rw [hmember, hparent, enclosing_eq_instUpTo h.toNested (by omega) hthis,
    Rendering.andThen_assoc] at htext
  obtain ⟨own, back, hown, hback, rfl⟩ := Rendering.finish_andThen_eq_ok.1 htext
  obtain ⟨point, rest', hpoint, _, rfl⟩ := Rendering.finish_andThen_eq_ok.1 hback
  rw [Rendering.finish_literal, Except.ok.injEq] at hpoint
  subst hpoint
  rw [finish_instUpTo h ctx catalog hb hle] at hown
  exact ⟨own, rest', hown, by rw [String.append_assoc]⟩

end

end Scene

namespace Document

/-- **Symbols and types agree on every aggregate of an accepted document**: under every context, or
none, an aggregate is displayed as its type over its own parameters, and each of its members that
is displayed behind it is displayed as that same text, a point and a remainder.

**Proof sketch.** The instantiation of an aggregate over its own parameters is replaced by a
context level by level, as the walk over the symbol replaces the parameters that it displays.  What
stands in front of a member is the aggregate, displayed in the same context. -/
theorem render_aggregate {json : Json} {doc : Document} (hdoc : ofJson json = .ok doc)
    (display : Display) {r : Renderer} (hr : r.session.isOpen = false) {id : SymId} {s : Symbol}
    (hs : doc.graph.find? id = some s) (hkind : s.kind = .aggregate) (ctx : Option Context) :
    ∃ inst, doc.graph.thisInst? id = some inst ∧
      (∀ args, (r.render doc.graph display (.symbol (some id) ctx args)).1 =
        (r.render doc.graph display (.type (.aggregate inst) ctx)).1) ∧
      ∀ member s', doc.graph.find? member = some s' → s'.parent = some id →
        s'.Qualified (display.niceNames.find? doc.graph member) → ∀ args text,
          (r.render doc.graph display (.symbol (some member) ctx args)).1 = .ok text →
            ∃ own rest, (r.render doc.graph display (.type (.aggregate inst) ctx)).1 = .ok own ∧
              text = own ++ "." ++ rest := by
  have hloaded := (loaded_of_ofJson hdoc).graph
  obtain ⟨a, ha⟩ := Symbol.kind_eq_aggregate.1 hkind
  obtain ⟨parent, _, hparent, _⟩ := hloaded.typeVars hs ha
  have hthis := hloaded.thisInst?_eq hs ha hparent
  refine ⟨_, hthis, fun args => ?_, fun member s' hs' hparent' hqualified args text htext => ?_⟩
  · rw [Renderer.render_fst hr, Renderer.render_fst hr]
    exact Scene.finish_symbol hloaded hthis ctx args display.catalog
  · rw [Renderer.render_fst hr] at htext ⊢
    let scene : Scene := ⟨doc.graph, display.niceNames, r.memo.isBogus doc.graph⟩
    have hqualified : s'.Qualified (scene.niceName? member) := hqualified
    exact Scene.finish_of_qualified hloaded hthis ctx args display.catalog hs' hparent' hqualified
      htext

/-- A generic class in a generic class, under a context that covers the outer parameter alone. -/
theorem render_aggregate_nested :
    ∃ doc id s, ofJson (.obj
        [("declarations", .arr [.obj [("kind", .str "class"), ("name", .str "Map"),
          ("type_params", .arr [.str "K"]),
          ("members", .arr [.obj [("kind", .str "struct"), ("name", .str "Entry"),
            ("type_params", .arr [.str "V"])]])]])]) = .ok doc ∧
      ({} : Renderer).session.isOpen = false ∧
      doc.graph.find? id = some s ∧ s.kind = .aggregate ∧
      (∃ inst, doc.graph.thisInst? id = some inst ∧ ∀ args,
        (({} : Renderer).render doc.graph {} (.symbol (some id) (some ⟨[.void], []⟩) args)).1 =
          (({} : Renderer).render doc.graph {} (.type (.aggregate inst) (some ⟨[.void], []⟩))).1) ∧
      (({} : Renderer).render doc.graph {} (.symbol (some id) (some ⟨[.void], []⟩) true)).1 =
        .ok "Map<void>.Entry<V>" := by
  refine ⟨?doc, (SymId.root.child (.member "Map" 0)).child (.member "Entry" 0),
    ⟨some "Entry", some (SymId.root.child (.member "Map" 0)),
      .aggregate ⟨.structType, [.param (.number 1) false (some "V")], false⟩⟩,
    ?hdoc, rfl, ?hs, rfl,
    (render_aggregate ?hdoc {} rfl ?hs rfl (some ⟨[.void], []⟩)).imp fun _ h => ⟨h.1, h.2.1⟩,
    ?htext⟩
  case hdoc => exact rfl
  case hs => cbv
  case htext => decide +kernel

end Document

end DisplayNames
