import DisplayNames.Argument
import DisplayNames.Proofs.SignatureParameters
import DisplayNames.Proofs.TypeLayers

/-!
# Members on the aggregate that declares them

A member that was found on its aggregate over the aggregate's own parameters is displayed as if it
had not been found on any instantiation.  Every parameter of the aggregate is replaced by itself,
and so is everything that looks like one: parameters have no owner, so a parameter that comes along
with a foreign generic type stays what it is only if it agrees with that of the aggregate at the
same position.  For parameters in scope this is always so.

## Main definitions

* `DisplayNames.Context.Keeps` — a context gives back every parameter in a type.
* `DisplayNames.Graph.SameParams` — two aggregates have the same parameters at the same positions.
* `DisplayNames.Graph.shownTypes` — the types that show in the name of a member.

## Main results

* `DisplayNames.Ty.subst_of_keeps` — substitution keeps a type whose parameters are given back.
* `DisplayNames.Scene.symbol_of_subst` — members under contexts that have the same effect.
* `DisplayNames.Document.format_memberOn_this` — what a member on its own aggregate is displayed as.
-/

set_option relaxedAutoImplicit false
set_option autoImplicit false

namespace DisplayNames

/-! ## Contexts that change nothing -/

/-- A context gives back every parameter in a type, or does not cover it. -/
def Context.Keeps (ctx : Context) (t : Ty) : Prop :=
  ∀ index ofMethod name, .param index ofMethod name ∈ t.parts →
    (ctx.find? index ofMethod).getD (.param index ofMethod name) = .param index ofMethod name

section

variable {ctx : Context}

/-- A type that is kept has children that are kept. -/
lemma Context.Keeps.child {t u : Ty} (h : ctx.Keeps t) (hu : u ∈ t.children) : ctx.Keeps u :=
  fun index ofMethod name hp => h index ofMethod name (Ty.mem_parts_of_child hu hp)

/-- **A replacement that gives back every parameter in a type gives back the type**: only parameters
are replaced, and those in a type are in the types directly inside it. -/
lemma Ty.replace_of_keeps (t : Ty) (h : ctx.Keeps t) : t.replace ctx = t := by
  induction t using Ty.induction_children with
  | h t ih =>
    by_cases hparam : t.IsParam
    · obtain ⟨i, m, n, rfl⟩ := hparam
      exact h i m n (self_mem_parts _)
    · have hchildren : t.mapChildren (Ty.replace ctx) (Inst.replace ctx) = t.mapChildren id id :=
        mapChildren_congr (fun _ => rfl) (fun _ => rfl) fun u hu => ih u hu (h.child hu)
      rw [replace_eq_ite hparam, hchildren, mapChildren_id, ite_self]

/-- Substitution keeps a type whose parameters are given back. -/
theorem Ty.subst_of_keeps {t : Ty} (h : ctx.Keeps t) : t.subst (some ctx) = t := by
  rw [subst_some, replace_of_keeps t h, ite_self]

/-- The same for instantiations. -/
lemma Inst.subst_of_keeps {inst : Inst} (h : ctx.Keeps (.aggregate inst)) :
    inst.subst (some ctx) = inst := by
  have hsubst := Ty.subst_of_keeps h
  rw [Ty.subst_aggregate] at hsubst
  exact Ty.aggregate.inj hsubst

end

/-! ## Parameters at the same positions -/

/-- The type parameters of two aggregates, counted through all levels, agree at every position that
both have. -/
def Graph.SameParams (g : Graph) (a b : SymId) : Prop :=
  ∀ (i : Nat) (p q : Ty), (g.typeVarsAll a)[i]? = some p → (g.typeVarsAll b)[i]? = some q → p = q

/-- The types of a symbol that show in its name.  The result of a method shows for a conversion
alone.  With a resolved slot the signature is that of the interface member, and only the interface
shows. -/
def Symbol.shownTypes (s : Symbol) : List Ty :=
  match s.detail with
  | .method m =>
    if m.impl.target?.isSome then m.impl.types
    else m.typeVars ++ m.params ++ (if m.conversion then m.returns.toList else []) ++ m.impl.types
  | .property p => if p.impl.target?.isSome then p.impl.types else p.params ++ p.impl.types
  | _ => []

/-- The types that show in the name of a member; for an accessor of a property they are those of the
property. -/
def Graph.shownTypes (g : Graph) (s : Symbol) : List Ty :=
  s.shownTypes ++ (((s.method?.bind Method.property).bind g.find?).map Symbol.shownTypes).getD []

/-- The types that show are stored in the symbol. -/
lemma Symbol.shownTypes_subset (s : Symbol) : s.shownTypes ⊆ s.types := by
  intro t ht
  cases hd : s.detail with
  | method m =>
    have hresult : (if m.conversion then m.returns.toList else []) ⊆ m.returns.toList := by
      split
      · exact List.Subset.refl _
      · exact List.nil_subset _
    simp only [shownTypes, types, hd] at ht ⊢
    split at ht
    · exact List.mem_append_right _ ht
    · simp only [List.mem_append] at ht ⊢
      exact ht.imp_left (Or.imp_right fun h => hresult h)
  | property p =>
    simp only [shownTypes, types, hd] at ht ⊢
    split at ht
    · exact List.mem_append_right _ ht
    · exact ht
  | _ => simp [shownTypes, hd] at ht

/-- An aggregate agrees with itself. -/
lemma Graph.SameParams.refl (g : Graph) (id : SymId) : g.SameParams id id := by
  intro i p q hp hq
  exact Option.some.inj (hp.symm.trans hq)

namespace Graph.Nested

variable {g : Graph} (h : g.Nested) {id : SymId} {inst : Inst} (hthis : g.thisInst? id = some inst)
include h hthis

/-- The context of an aggregate over its own parameters gives back the parameters of every aggregate
that agrees with it. -/
lemma find?_of_sameParams {other : SymId} (hsame : g.SameParams other id) {i : Ordinal} {m : Bool}
    {n : Option String} (hp : .param i m n ∈ g.typeVarsAll other) :
    ((Context.ofInst (some inst) []).find? i m).getD (.param i m n) = .param i m n := by
  obtain ⟨names, hnames⟩ := h.typeVarsAll_eq_typeParams other
  obtain ⟨k, hk⟩ := List.getElem?_of_mem hp
  have hposition := hk
  rw [hnames] at hposition
  obtain ⟨name, hparam⟩ := getElem?_typeParams hposition
  simp only [Nat.zero_add, Ty.param.injEq] at hparam
  obtain ⟨rfl, rfl, rfl⟩ := hparam
  have hfind : (Context.ofInst (some inst) []).find? (.number (k : Nat)) false =
      (g.typeVarsAll id)[k]? := by
    have hnonneg : ¬ (k : Int) < 0 := by omega
    rw [← argsAll_of_thisInst? hthis]
    simp [Context.find?, Context.ofInst, Ordinal.value, hnonneg]
  rw [hfind]
  cases hq : (g.typeVarsAll id)[k]? with
  | none => rfl
  | some q => exact (hsame k _ q hk hq).symm

/-- It keeps the aggregate over its own parameters. -/
lemma keeps_this : (Context.ofInst (some inst) []).Keeps (.aggregate inst) :=
  fun _ _ _ hp =>
    h.find?_of_sameParams hthis (.refl g id) (h.mem_typeVarsAll_of_parts hthis hp)

/-- It keeps every type in the signature of a member, if the aggregates that nested ones are taken
inside of agree with it. -/
lemma keeps_of_sourced {t : Ty} (ht : t.Sourced g (Document.Known g id))
    (hsame : ∀ i outer, .aggregate i ∈ t.parts → g.TakenInside i outer → g.SameParams outer id) :
    (Context.ofInst (some inst) []).Keeps t := by
  intro i m n hp
  rcases ht i m n hp with (⟨index, name, hmethod⟩ | hscope) | ⟨j, outer, hj, htaken, hmem⟩
  · obtain ⟨rfl, rfl, rfl⟩ := Ty.param.inj hmethod
    simp [Context.find?, Context.ofInst]
  · exact h.find?_of_sameParams hthis (.refl g id) hscope
  · exact h.find?_of_sameParams hthis (hsame j outer hj htaken) hmem

end Graph.Nested

/-! ## Members under two contexts -/

/-- The type that a slot is seen on is one of the types of the explicit implementation. -/
lemma ExplicitImpl.mem_types_of_target {impl : ExplicitImpl} {member : SymId} {on : Option Inst}
    (htarget : impl.target? = some (member, on)) : ∀ i ∈ on, .aggregate i ∈ impl.types := by
  rintro i ⟨rfl⟩
  unfold target? at htarget
  split at htarget
  · obtain ⟨slot, hslot, htarget⟩ := Option.bind_eq_some_iff.1 htarget
    obtain ⟨_, _, heq⟩ := Option.map_eq_some_iff.1 htarget
    obtain ⟨rfl, hon⟩ := Prod.mk.inj heq
    simp [types, hslot, hon]
  · cases htarget

/-- So is the stand-in for a slot that did not resolve. -/
lemma ExplicitImpl.mem_types_of_unresolved {impl : ExplicitImpl} {t : Ty}
    (ht : t ∈ impl.unresolved) : t ∈ impl.types :=
  List.mem_append_right _ (Option.mem_toList.2 ht)

/-- A slot is seen in one context under two that have the same effect on the type it is seen on. -/
lemma slotContext_congr {ctx ctx' : Option Context} {on : Option Inst}
    (hon : ∀ i ∈ on, (Ty.aggregate i).subst ctx = (Ty.aggregate i).subst ctx') :
    slotContext on ctx = slotContext on ctx' := by
  unfold slotContext
  cases on with
  | none => rfl
  | some i =>
    have hi := hon i rfl
    rw [Ty.subst_aggregate, Ty.subst_aggregate] at hi
    rw [Option.map_some, Option.map_some, Ty.aggregate.inj hi]

namespace Scene

section

variable {scene : Scene} {bound : Nat} {ctx ctx' : Option Context}

/-- The result of a method that is no conversion does not show in its name. -/
lemma methodName_of_not_conversion {type : Ty → Rendering} {s : Symbol} {m : Method}
    (h : m.conversion = false) :
    scene.methodName type s m = scene.methodName type s { m with returns := none } := by
  simp only [methodName, h, Bool.false_eq_true, if_false]

/-- A type is displayed alike under two contexts that have the same effect on it. -/
lemma typeUpTo_of_subst {t : Ty} (h : t.subst ctx = t.subst ctx') :
    scene.typeUpTo bound ctx t = scene.typeUpTo bound ctx' t := by
  rw [typeUpTo, typeUpTo, h]

variable {id : SymId} {s : Symbol} (hs : scene.graph.find? id = some s)
  (hfront : scene.enclosing (scene.plainUpTo bound) ctx s.parent =
    scene.enclosing (scene.plainUpTo bound) ctx' s.parent)
  (hshown : ∀ t ∈ s.shownTypes, t.subst ctx = t.subst ctx')
include hs hfront hshown

/-- A property is displayed alike under two contexts that have the same effect on the types that
show in its name, if what stands in front of it is displayed alike. -/
lemma property_of_subst {p : Property} (hd : s.detail = .property p) (args : Bool) :
    scene.symbolUpTo (bound + 1) id ctx args = scene.symbolUpTo (bound + 1) id ctx' args := by
  simp only [Symbol.shownTypes, hd] at hshown
  cases ht : p.impl.target? with
  | some target =>
    obtain ⟨member, on⟩ := target
    rw [ht, Option.isSome_some, if_pos rfl] at hshown
    have hslot := slotContext_congr fun i hi =>
      hshown _ (ExplicitImpl.mem_types_of_target ht i hi)
    rw [symbolUpTo_property_slot hs hd ht, symbolUpTo_property_slot hs hd ht, hfront, hslot]
  | none =>
    simp only [ht, Option.isSome_none, Bool.false_eq_true, if_false, List.mem_append] at hshown
    have hname : propertyName (scene.typeUpTo bound ctx) s p =
        propertyName (scene.typeUpTo bound ctx') s p :=
      propertyName_congr Rendering.Congruence.eq s
        (fun t ht => typeUpTo_of_subst (hshown t (.inl ht)))
        fun t ht => typeUpTo_of_subst
          (hshown t (.inr (ExplicitImpl.mem_types_of_unresolved ht)))
    rw [symbolUpTo_property hs hd ht, symbolUpTo_property hs hd ht, hfront, hname]

/-- The same for a method that is no accessor.

**Proof sketch.** With a slot the method is displayed by the member of the slot, under contexts
that put the same types into the slot.  Otherwise the parts of the name are displayed alike, one by
one.  The result only shows in the name of a conversion, so nothing is asked of it for other
methods. -/
lemma method_of_subst {m : Method} (hd : s.detail = .method m)
    (haccessor : m.impl.target? = none → m.property = none ∧ m.event = none) (args : Bool) :
    scene.symbolUpTo (bound + 1) id ctx args = scene.symbolUpTo (bound + 1) id ctx' args := by
  simp only [Symbol.shownTypes, hd] at hshown
  cases ht : m.impl.target? with
  | some target =>
    obtain ⟨member, on⟩ := target
    rw [ht, Option.isSome_some, if_pos rfl] at hshown
    have hslot := slotContext_congr fun i hi =>
      hshown _ (ExplicitImpl.mem_types_of_target ht i hi)
    rw [symbolUpTo_method_slot hs hd ht, symbolUpTo_method_slot hs hd ht, hfront, hslot]
  | none =>
    simp only [ht, Option.isSome_none, Bool.false_eq_true, if_false, List.mem_append] at hshown
    obtain ⟨hproperty, hevent⟩ := haccessor ht
    have hunresolved : ∀ t ∈ m.impl.unresolved,
        scene.typeUpTo bound ctx t = scene.typeUpTo bound ctx' t := fun t ht =>
      typeUpTo_of_subst (hshown t (.inr (ExplicitImpl.mem_types_of_unresolved ht)))
    have hname : scene.methodName (scene.typeUpTo bound ctx) s m =
        scene.methodName (scene.typeUpTo bound ctx') s m := by
      cases hconversion : m.conversion with
      | true =>
        refine scene.methodName_congr Rendering.Congruence.eq s (fun t ht => ?_) hunresolved
        exact typeUpTo_of_subst (hshown t (.inl (.inr (by simpa [hconversion] using ht))))
      | false =>
        -- without its result the method has the same name
        rw [methodName_of_not_conversion hconversion, methodName_of_not_conversion hconversion]
        exact scene.methodName_congr Rendering.Congruence.eq s (by simp) hunresolved
    have hvars : Rendering.separated "," (scene.typeUpTo bound ctx) m.typeVars =
        Rendering.separated "," (scene.typeUpTo bound ctx') m.typeVars :=
      Rendering.Congruence.eq.separated ","
        fun t ht => typeUpTo_of_subst (hshown t (.inl (.inl (.inl ht))))
    have harguments : scene.methodArguments (scene.typeUpTo bound ctx) id m =
        scene.methodArguments (scene.typeUpTo bound ctx') id m :=
      scene.methodArguments_congr Rendering.Congruence.eq id
        fun t ht => typeUpTo_of_subst (hshown t (.inl (.inl (.inr ht))))
    rw [symbolUpTo_method hs hd ht hproperty hevent, symbolUpTo_method hs hd ht hproperty hevent,
      hfront, hname, hvars, harguments]

end

/-- **A member is displayed alike under two contexts that have the same effect** on the types that
show in its name, if what stands in front of it is displayed alike.

An accessor of a property is displayed by way of its property, an accessor of an event as its role
alone.

**Proof sketch.** A case for each kind of member.  An accessor of a property has the property in
front of its role, which is a member of the same aggregate whose types show as well. -/
theorem symbol_of_subst {scene : Scene} (h : scene.graph.Loaded) {ctx ctx' : Option Context}
    {id : SymId} {s : Symbol} (hs : scene.graph.find? id = some s)
    (hkind : s.kind ∈ [.field, .property, .method])
    (hfront : ∀ bound, scene.graph.size ≤ bound →
      scene.enclosing (scene.plainUpTo bound) ctx s.parent =
        scene.enclosing (scene.plainUpTo bound) ctx' s.parent)
    (hshown : ∀ t ∈ scene.graph.shownTypes s, t.subst ctx = t.subst ctx') (args : Bool) :
    scene.symbol id ctx args = scene.symbol id ctx' args := by
  obtain ⟨n, hn, hlarge⟩ : ∃ n, scene.walkBound = n + 1 + 1 ∧ scene.graph.size ≤ n :=
    ⟨2 * scene.graph.size + 998, rfl, by omega⟩
  have hfront' := hfront (n + 1) (by omega)
  have hown : ∀ t ∈ s.shownTypes, t.subst ctx = t.subst ctx' :=
    fun t ht => hshown t (List.mem_append_left _ ht)
  unfold symbol
  rw [hn]
  cases hd : s.detail with
  | field => rw [symbolUpTo_field hs hd, symbolUpTo_field hs hd, hfront']
  | property p => exact property_of_subst hs hfront' hown hd args
  | method m =>
    cases hp : m.property with
    | some owner =>
      obtain ⟨himpl, _, s', p, hs', hd', hparent, _⟩ := (h.method hs hd).property hp
      have htarget : m.impl.target? = none := by rw [himpl]; rfl
      have hshown' : ∀ t ∈ s'.shownTypes, t.subst ctx = t.subst ctx' := by
        intro t ht
        refine hshown t (List.mem_append_right _ ?_)
        simpa [Symbol.method?, hd, hp, hs'] using ht
      have hproperty := property_of_subst hs' (hparent ▸ hfront n hlarge) hshown' hd' true
      rw [symbolUpTo_method_property hs hd htarget hp, symbolUpTo_method_property hs hd htarget hp,
        hproperty]
    | none =>
      cases he : m.event with
      | some owner =>
        obtain ⟨himpl, _, s', e, hs', hd', _⟩ := (h.method hs hd).event he
        have htarget : m.impl.target? = none := by rw [himpl]; rfl
        rw [symbolUpTo_method_event hs hd htarget hp he,
          symbolUpTo_method_event hs hd htarget hp he, symbolUpTo_event hs' hd',
          symbolUpTo_event hs' hd']
      | none => exact method_of_subst hs hfront' hown hd (fun _ => ⟨hp, he⟩) args
  | _ => simp [Symbol.kind, hd, Detail.kind] at hkind

variable {scene : Scene} (h : scene.graph.Loaded) {parent : SymId} {inst : Inst}
  (hthis : scene.graph.thisInst? parent = some inst)
include h hthis

/-- What stands in front of the members of an aggregate is displayed as without a context. -/
lemma enclosing_this {bound : Nat} (hb : scene.graph.size ≤ bound) :
    scene.enclosing (scene.plainUpTo bound) (some (.ofInst (some inst) [])) (some parent) =
      scene.enclosing (scene.plainUpTo bound) none (some parent) := by
  rw [enclosing_eq_instUpTo h.toNested hb hthis, enclosing_eq_instUpTo h.toNested hb hthis,
    Inst.subst_of_keeps (h.keeps_this hthis)]
  rfl

/-- **A member of an aggregate is displayed on the aggregate over its own parameters as it is
displayed without an instantiation**, if the types that show in its name are kept. -/
lemma symbol_this {id : SymId} {s : Symbol} (hs : scene.graph.find? id = some s)
    (hparent : s.parent = some parent) (hkind : s.kind ∈ [.field, .property, .method])
    (hkeeps : ∀ t ∈ scene.graph.shownTypes s, (Context.ofInst (some inst) []).Keeps t)
    (args : Bool) :
    scene.symbol id (some (.ofInst (some inst) [])) args = scene.symbol id none args := by
  refine symbol_of_subst h hs hkind (fun bound hb => ?_) (fun t ht => ?_) args
  · rw [hparent]
    exact enclosing_this h hthis hb
  · exact Ty.subst_of_keeps (hkeeps t ht)

end Scene

/-! ## Members of accepted documents -/

/-- A reference comes to what is rendered for it, after any earlier calls. -/
lemma Argument.format_examined {arg : Argument} {subject : Subject}
    (hsubject : arg.subject? = some subject) (g : Graph) (display : Display) (ids : List SymId) :
    (arg.format g display (Memo.examineAll [] g ids)).1 =
      ((subject.rendering ⟨g, display.niceNames, g.signatureBogus⟩).finish display.catalog).map
        fun text => some ⟨some text, true⟩ := by
  have hrender : (Renderer.render ⟨.closed, Memo.examineAll [] g ids⟩ g display subject).1 =
      (subject.rendering ⟨g, display.niceNames, g.signatureBogus⟩).finish display.catalog := by
    rw [Renderer.render_fst rfl, Memo.isBogus_of_empty]
  unfold format
  rw [hsubject, ← hrender]

namespace Document

/-- **A member is displayed alike on its aggregate over the aggregate's own parameters and without
an instantiation**, after any earlier calls, with the same text or the same error: in an accepted
document in which no type in a signature is written by position, a field, property or method of an
aggregate, provided that each nested aggregate in the types that show in the member's name and which
is taken inside an enclosing aggregate over the parameters of that one has an enclosing aggregate
whose parameters agree with those of the declaring one.

**Proof sketch.** A parameter in the signature is one of the member's own, which no instantiation of
an aggregate covers; or it is in scope, and the context of the aggregate over its own parameters
gives it back; or it comes along with a nested aggregate, and then it is given back because the
enclosing aggregates agree. -/
theorem format_memberOn_this {json : Json} {doc : Document} (hdoc : ofJson json = .ok doc)
    (hraw : ∀ d ∈ listed json, ∀ value ∈ d.writtenTypes, ¬ UsesRawParam value)
    (display : Display) (examined examined' : List SymId) {id parent : SymId} {s : Symbol}
    (hs : doc.graph.find? id = some s) (hparent : s.parent = some parent)
    (hkind : s.kind ∈ [.field, .property, .method])
    (hsame : ∀ t ∈ doc.graph.shownTypes s, ∀ inst outer, .aggregate inst ∈ t.parts →
      doc.graph.TakenInside inst outer → doc.graph.SameParams outer parent) :
    ∃ inst, doc.graph.thisInst? parent = some inst ∧
      ((Argument.memberOn (some id) (some inst)).format doc.graph display
          (Memo.examineAll [] doc.graph examined)).1 =
        ((Argument.symbol (some id) none).format doc.graph display
          (Memo.examineAll [] doc.graph examined')).1 := by
  have hloaded := (loaded_of_ofJson hdoc).graph
  obtain ⟨fields, rfl, declarations, signed, items, hstages⟩ := stages_of_ofJson hdoc
  have hmember : s.kind ≠ .space ∧ s.kind ≠ .aggregate := by
    constructor <;>
      · intro heq
        simp [heq] at hkind
  obtain ⟨parent', hparent', haggregate⟩ := hloaded.parent_of_member hs hmember.1 hmember.2
  obtain rfl := Option.some.inj (hparent.symm.trans hparent')
  obtain ⟨around, a, above, haround, ha, habove⟩ := hloaded.aggregate_cases haggregate
  have hthis := hloaded.thisInst?_eq haround ha habove
  refine ⟨_, hthis, ?_⟩
  have hkeeps : ∀ t ∈ doc.graph.shownTypes s,
      (Context.ofInst (some (.mk parent a.typeVars (doc.graph.thisInst? above))) []).Keeps t := by
    intro t ht
    refine hloaded.keeps_of_sourced hthis ?_ (hsame t ht)
    rcases List.mem_append.1 ht with hown | howner
    · exact hstages.types_sourced hraw hs hparent hmember.2 t (s.shownTypes_subset hown)
    · -- the property of an accessor has the same parent
      cases hd : s.detail with
      | method m =>
        cases hp : m.property with
        | none => simp [Symbol.method?, hd, hp] at howner
        | some owner =>
          obtain ⟨_, _, s', p, hs', hd', hparent'', _⟩ := (hloaded.method hs hd).property hp
          have hproperty : s'.kind ≠ .aggregate := by simp [Symbol.kind, hd', Detail.kind]
          have hshown : t ∈ s'.shownTypes := by
            simpa [Symbol.method?, hd, hp, hs'] using howner
          exact hstages.types_sourced hraw hs' (hparent''.trans hparent) hproperty t
            (s'.shownTypes_subset hshown)
      | _ => simp [Symbol.method?, hd] at howner
  let scene : Scene := ⟨doc.graph, display.niceNames, doc.graph.signatureBogus⟩
  have hscene : scene.graph.Loaded := hloaded
  have hsymbol := Scene.symbol_this hscene hthis hs hparent hkind hkeeps true
  rw [Argument.format_examined rfl, Argument.format_examined rfl]
  exact congrArg (fun r : Rendering => (r.finish display.catalog).map _) hsymbol

/-- A method of a generic struct in a generic class, with a sibling of the struct as a parameter:
what the sibling brings along is in scope. -/
theorem format_memberOn_this_sibling :
    let json : Json := .obj [("declarations", .arr [.obj [("kind", .str "class"),
      ("name", .str "G"), ("type_params", .arr [.str "K"]), ("members", .arr [
        .obj [("kind", .str "class"), ("name", .str "N")],
        .obj [("kind", .str "struct"), ("name", .str "H"), ("type_params", .arr [.str "V"]),
          ("members", .arr [.obj [("kind", .str "method"), ("name", .str "M"),
            ("params", .arr [.str "G.N", .str "V"])]])]])]])]
    ∃ doc id parent s, ofJson json = .ok doc ∧
      (∀ d ∈ listed json, ∀ value ∈ d.writtenTypes, ¬ UsesRawParam value) ∧
      doc.graph.find? id = some s ∧ s.parent = some parent ∧
      s.kind ∈ [.field, .property, .method] ∧
      (∀ t ∈ doc.graph.shownTypes s, ∀ inst outer, .aggregate inst ∈ t.parts →
        doc.graph.TakenInside inst outer → doc.graph.SameParams outer parent) ∧
      (∃ inst, doc.graph.thisInst? parent = some inst ∧
        ((Argument.memberOn (some id) (some inst)).format doc.graph {} []).1 =
          ((Argument.symbol (some id) none).format doc.graph {} []).1) ∧
      ((Argument.symbol (some id) none).format doc.graph {} []).1 =
        .ok (some ⟨some "G<K>.H<V>.M(G<K>.N, V)", true⟩) := by
  intro json
  obtain ⟨doc, g, n, id, parent, s, hdoc, hwritten, hs, hparent, hkind, hshown, hn, hg, hvars,
    hvars', htext⟩ : ∃ doc g n id parent s, ofJson json = .ok doc ∧
      (listed json).flatMap Declared.writtenTypes = ["G.N", "V"].map .str ∧
      doc.graph.find? id = some s ∧ s.parent = some parent ∧ s.kind = .method ∧
      doc.graph.shownTypes s =
        [.aggregate (.mk n [] (some (.mk g [.param (.number 0) false (some "K")] none))),
          .param (.number 1) false (some "V")] ∧
      doc.graph.outerAggregate? n = some g ∧ doc.graph.outerAggregate? g = none ∧
      doc.graph.typeVarsAll g = [.param (.number 0) false (some "K")] ∧
      doc.graph.typeVarsAll parent =
        [.param (.number 0) false (some "K"), .param (.number 1) false (some "V")] ∧
      ((Argument.symbol (some id) none).format doc.graph {} []).1 =
        .ok (some ⟨some "G<K>.H<V>.M(G<K>.N, V)", true⟩) := by
    refine ⟨?doc, SymId.root.child (.member "G" 0),
      (SymId.root.child (.member "G" 0)).child (.member "N" 0),
      ((SymId.root.child (.member "G" 0)).child (.member "H" 0)).child (.member "M" 0),
      ?parent, ?symbol, ?hdoc, ?hwritten, ?hs, ?hparent, ?hkind, ?hshown, ?hn, ?hg, ?hvars, ?hvars',
      ?htext⟩
    case hdoc => cbv; rfl
    case hs => cbv; rfl
    case hparent => rfl
    case htext => decide +kernel
    all_goals cbv
  have hraw : ∀ d ∈ listed json, ∀ value ∈ d.writtenTypes, ¬ UsesRawParam value :=
    not_usesRawParam_of_names hwritten
  have hmember : s.kind ∈ [.field, .property, .method] := by simp [hkind]
  have hsame : ∀ t ∈ doc.graph.shownTypes s, ∀ inst outer, .aggregate inst ∈ t.parts →
      doc.graph.TakenInside inst outer → doc.graph.SameParams outer parent := by
    rw [hshown]
    intro t ht inst outer hinst htaken
    obtain ⟨houter, _⟩ := htaken
    -- only the sibling is taken inside another aggregate
    obtain rfl : outer = g := by
      rcases List.mem_pair.1 ht with rfl | rfl
      · simp only [Ty.parts, Inst.parts, Ty.partsAll, List.append_nil, List.nil_append,
          List.mem_cons, List.not_mem_nil, or_false, Ty.aggregate.injEq, reduceCtorEq] at hinst
        rcases hinst with rfl | rfl
        · exact Option.some.inj (houter.symm.trans hn)
        · exact absurd (houter.symm.trans hg) (by simp)
      · simp at hinst
    intro i p q hp hq
    rw [hvars] at hp
    rw [hvars'] at hq
    cases i with
    | zero => exact Option.some.inj (hp.symm.trans hq)
    | succ i => simp at hp
  exact ⟨doc, id, parent, s, hdoc, hraw, hs, hparent, hmember, hsame,
    format_memberOn_this hdoc hraw {} [] [] hs hparent hmember hsame, htext⟩

/-- A method of a generic class with a nested class of another generic class as a parameter: the
argument of the declaring class is put in for the parameter of the other one. -/
theorem memberOn_this_captures :
    let json : Json := .obj [("declarations", .arr [
      .obj [("kind", .str "class"), ("name", .str "G"), ("type_params", .arr [.str "T"]),
        ("members", .arr [.obj [("kind", .str "class"), ("name", .str "N")]])],
      .obj [("kind", .str "class"), ("name", .str "C"), ("type_params", .arr [.str "A"]),
        ("members", .arr [.obj [("kind", .str "method"), ("name", .str "M"),
          ("params", .arr [.str "G.N"])]])]])]
    ∃ doc id parent s inst, ofJson json = .ok doc ∧
      (∀ d ∈ listed json, ∀ value ∈ d.writtenTypes, ¬ UsesRawParam value) ∧
      doc.graph.find? id = some s ∧ s.parent = some parent ∧ s.kind = .method ∧
      doc.graph.thisInst? parent = some inst ∧
      ((Argument.symbol (some id) none).format doc.graph {} []).1 =
        .ok (some ⟨some "C<A>.M(G<T>.N)", true⟩) ∧
      ((Argument.memberOn (some id) (some inst)).format doc.graph {} []).1 =
        .ok (some ⟨some "C<A>.M(G<A>.N)", true⟩) ∧
      ((Argument.memberOn (some id) (some inst)).format doc.graph {} []).1 ≠
        ((Argument.symbol (some id) none).format doc.graph {} []).1 := by
  intro json
  refine ⟨?doc, (SymId.root.child (.member "C" 0)).child (.member "M" 0),
    SymId.root.child (.member "C" 0), ?symbol, ?inst, ?hdoc, ?hraw, ?hs, ?hparent, ?hkind, ?hthis,
    ?htext, ?htext', ?hne⟩
  case hdoc => cbv; rfl
  case hraw =>
    have hwritten : (listed json).flatMap Declared.writtenTypes = ["G.N"].map .str := by cbv
    exact not_usesRawParam_of_names hwritten
  case hs => cbv; rfl
  case hparent => rfl
  case hkind => rfl
  case hthis => cbv; rfl
  case htext => decide +kernel
  case htext' => decide +kernel
  case hne => decide +kernel

end Document

end DisplayNames
