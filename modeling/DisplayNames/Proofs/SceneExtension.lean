import DisplayNames.Proofs.GraphExtension
import DisplayNames.Proofs.RequestOutcome

/-!
# Rendering over larger graphs

A walk over a graph that begins in a smaller graph inside it never leaves the smaller one and sees
no difference, so with one bound on its length it is the same walk over both graphs.  The two graphs
have different bounds; but a walk over a loaded graph ends below the smaller one or does not end at
all.  So what is rendered over the smaller graph is rendered alike over the larger one.

## Main definitions

* `DisplayNames.Scene.Within` — what rendering reads of the smaller graph is the same.

## Main results

* `DisplayNames.Scene.Within.renderBase_eq` — types are displayed alike.
* `DisplayNames.Scene.Within.symbolUpTo_eq` — walks with one bound are the same.
* `DisplayNames.Subject.Loaded.render_within` — what is rendered is the same.
-/

set_option relaxedAutoImplicit false
set_option autoImplicit false

namespace DisplayNames

/-- What rendering reads of the smaller graph is the same for the larger one. -/
structure Scene.Within (scene scene' : Scene) : Prop where
  graph : scene.graph.Within scene'.graph
  niceNames_eq : scene'.niceNames = scene.niceNames
  bogus_eq {id : SymId} {s : Symbol} : scene.graph.find? id = some s →
    scene'.bogus id = scene.bogus id

/-- Every bound above that of a scene gives the same text for a type. -/
lemma Scene.finish_type_of_le {scene : Scene} (hg : scene.graph.Loaded) {bound : Nat}
    (hle : scene.walkBound ≤ bound) (t : Ty) (ctx : Option Context) (catalog : Catalog) :
    (scene.type t ctx).finish catalog = (scene.typeUpTo bound ctx t).finish catalog := by
  have hlarge : 2 * scene.graph.size < scene.walkBound := by unfold walkBound; omega
  have hplain (parent : SymId) :
      (scene.plainUpTo scene.walkBound parent).Agrees (scene.plainUpTo bound parent) :=
    symbolUpTo_agrees hg hlarge hle parent (by simp) true
  have haround := scene.around_congr Rendering.Agrees.congruence hplain
  exact (renderTy_congr scene Rendering.Agrees.congruence haround _).finish_eq catalog

namespace Scene.Within

variable {scene scene' : Scene} (h : scene.Within scene')
include h

/-- The role of an accessor is the same. -/
lemma propertyRole_eq {owner : SymId} {s : Symbol} (hs : scene.graph.find? owner = some s)
    (id : SymId) (accessor : Option String) :
    scene'.propertyRole id accessor owner = scene.propertyRole id accessor owner := by
  rw [propertyRole, propertyRole, h.graph.find?_eq hs]

/-- The same for an accessor of an event. -/
lemma eventRole_eq {owner : SymId} {s : Symbol} (hs : scene.graph.find? owner = some s)
    (id : SymId) (accessor : Option String) :
    scene'.eventRole id accessor owner = scene.eventRole id accessor owner := by
  rw [eventRole, eventRole, h.graph.find?_eq hs]

/-- The arguments of a method are the same. -/
lemma methodArguments_eq {id : SymId} {s : Symbol} (hs : scene.graph.find? id = some s)
    (type : Ty → Rendering) (m : Method) :
    scene'.methodArguments type id m = scene.methodArguments type id m := by
  rw [methodArguments, methodArguments, h.bogus_eq hs]

section

variable (hg : scene.graph.Rooted)
include hg

/-- The own name of a method is the same. -/
lemma methodName_eq {id : SymId} {s : Symbol} (hs : scene.graph.find? id = some s)
    (type : Ty → Rendering) (m : Method) :
    scene'.methodName type s m = scene.methodName type s m := by
  have hparent : s.parent.bind scene'.graph.find? = s.parent.bind scene.graph.find? := by
    cases hparent : s.parent with
    | none => rfl
    | some parent =>
      obtain ⟨around, haround, _⟩ := hg.parent_of_eq hs hparent
      exact h.graph.find?_eq haround
  rw [methodName, methodName, hparent]

section

variable {symbol symbol' : SymId → Rendering}
  (hsymbol : ∀ id s, scene.graph.find? id = some s → symbol' id = symbol id)
include hsymbol

omit hg in
/-- What is displayed around a symbol is the same if the symbols are. -/
lemma around_eq {id : SymId} {s : Symbol} (hs : scene.graph.find? id = some s) :
    scene'.around symbol' (some id) = scene.around symbol (some id) := by
  unfold around
  dsimp only
  rw [h.graph.root_eq, hsymbol id s hs]

/-- What is displayed around the parent of a symbol is the same. -/
lemma around_parent_eq {id : SymId} {s : Symbol} (hs : scene.graph.find? id = some s) :
    scene'.around symbol' s.parent = scene.around symbol s.parent := by
  cases hparent : s.parent with
  | none => rfl
  | some parent =>
    obtain ⟨around, haround, _⟩ := hg.parent_of_eq hs hparent
    exact h.around_eq hsymbol haround

variable (hg' : scene'.graph.Rooted)
include hg'

omit hsymbol in
/-- A symbol has the same nice name. -/
lemma niceName?_eq {id : SymId} {s : Symbol} (hs : scene.graph.find? id = some s) :
    scene'.niceName? id = scene.niceName? id := by
  rw [niceName?, niceName?, h.niceNames_eq, NiceNames.find?, NiceNames.find?,
    h.graph.qualifiedName_eq hs hg hg']

/-- Well-formed types and instantiations are displayed alike.

**Proof sketch.** Induction over well-formed types and instantiations.  What a type mentions is in
the smaller graph, where it has the same name, the same nice name and the same surroundings. -/
theorem renderBase_eq :
    (∀ t : Ty, t.WellFormed scene.graph →
      renderBase scene' (scene'.around symbol') t = renderBase scene (scene.around symbol) t) ∧
    ∀ inst : Inst, inst.WellFormed scene.graph →
      renderInst scene' (scene'.around symbol') inst =
        renderInst scene (scene.around symbol) inst := by
  have hargs {ts : List Ty} (hts : ∀ t ∈ ts,
      renderBase scene' (scene'.around symbol') t = renderBase scene (scene.around symbol) t) :
      renderArgs scene' (scene'.around symbol') ts =
        renderArgs scene (scene.around symbol) ts := by
    rw [renderArgs_eq_separated, renderArgs_eq_separated]
    exact Rendering.Congruence.eq.separated "," fun t ht => by rw [renderTy, renderTy, hts t ht]
  apply Ty.WellFormed.induction_parts
  case aggregate => exact fun _ _ ih => ih
  case array => exact fun _ _ _ _ _ ih => ih
  case param => intros; rfl
  case pointer | nullable =>
    intro inner _ ih
    rw [renderBase, renderBase, ih]
  case byRef =>
    intro target out _ ih
    rw [renderBase, renderBase, ih]
  case errorInType =>
    intro parent name args _ _ hp has
    simp only [renderBase, hp, hargs has]
  case errorInSpace =>
    intro space name args hspace _ has
    obtain ⟨s, hs, _⟩ := Option.map_eq_some_iff.1 hspace
    simp only [renderBase, Option.map_some, h.around_eq hsymbol hs, hargs has]
  case outermost =>
    intro decl args hdecl _ _ has
    obtain ⟨s, hs, _⟩ := Option.map_eq_some_iff.1 hdecl
    simp only [renderInst, h.niceName?_eq hg hg' hs, h.graph.find?_eq hs, hs, Option.bind_some,
      h.around_parent_eq hg hsymbol hs, hargs has]
  case inside =>
    intro decl args outer hdecl _ _ has ho
    obtain ⟨s, hs, _⟩ := Option.map_eq_some_iff.1 hdecl
    simp only [renderInst, h.niceName?_eq hg hg' hs, h.graph.find?_eq hs, ho, hargs has]
  all_goals rfl

end

end

/-- What stands in front of a member is the same.

**Proof sketch.** The aggregate around a member and its parameters are those of the smaller graph.
If the context shows, its instantiation is displayed, which is well-formed there. -/
lemma enclosing_eq (hg : scene.graph.Nested) (hg' : scene'.graph.Rooted)
    {symbol symbol' : SymId → Rendering}
    (hsymbol : ∀ id s, scene.graph.find? id = some s → symbol' id = symbol id)
    {ctx : Option Context} (hctx : ∀ c ∈ ctx, c.WellFormed scene.graph) {id : SymId} {s : Symbol}
    (hs : scene.graph.find? id = some s) :
    scene'.enclosing symbol' ctx s.parent = scene.enclosing symbol ctx s.parent := by
  cases hparent : s.parent with
  | none => rfl
  | some parent =>
    obtain ⟨around, haround, _⟩ := hg.parent_of_eq hs hparent
    have hvars := h.graph.typeVarsAll_eq haround hg.toRooted hg'
    have hthis := h.graph.thisInst?_eq haround hg.toRooted hg'
    unfold enclosing
    dsimp only
    rw [h.graph.root_eq, hvars, hthis, hsymbol parent around haround]
    split
    · rfl
    · split
      · rename_i inst hshown
        obtain ⟨c, hc, hinst⟩ := Option.bind_eq_some_iff.1 hshown
        obtain ⟨hc, _⟩ := Option.filter_eq_some_iff.1 hc
        obtain ⟨this, hthis, rfl⟩ := Option.map_eq_some_iff.1 hinst
        have hwf : (this.subst (some c)).WellFormed scene.graph :=
          (hg.thisInst?_wellFormed parent this hthis).subst (by simpa using hctx c hc)
        rw [(h.renderBase_eq hg.toRooted hsymbol hg').2 _ hwf]
      · rfl

section

variable (hg : scene.graph.Loaded) (hg' : scene'.graph.Rooted)
include hg hg'

/-- Well-formed types are displayed alike under well-formed contexts. -/
lemma typeUpTo_eq {bound : Nat}
    (hplain : ∀ id s, scene.graph.find? id = some s →
      scene'.plainUpTo bound id = scene.plainUpTo bound id)
    {ctx : Option Context} (hctx : ∀ c ∈ ctx, c.WellFormed scene.graph) {t : Ty}
    (ht : t.WellFormed scene.graph) :
    scene'.typeUpTo bound ctx t = scene.typeUpTo bound ctx t := by
  have hbase := (h.renderBase_eq hg.toRooted hplain hg').1 (t.subst ctx) (ht.subst hctx)
  rw [typeUpTo, typeUpTo, renderTy, renderTy, hbase]

/-- **Walks with one bound are the same.**

**Proof sketch.** Induction on the bound.  A step of a walk goes to the parent, to the member of the
slot or to the owner of a symbol of the smaller graph, and these are symbols of the smaller graph;
the types on the way are well-formed over the smaller graph. -/
theorem symbolUpTo_eq (bound : Nat) {id : SymId} {s : Symbol} (hs : scene.graph.find? id = some s)
    {ctx : Option Context} (hctx : ∀ c ∈ ctx, c.WellFormed scene.graph) (args : Bool) :
    scene'.symbolUpTo bound id ctx args = scene.symbolUpTo bound id ctx args := by
  induction bound generalizing id s ctx args with
  | zero => rfl
  | succ bound ih =>
    have hs' := h.graph.find? hs
    have hplain : ∀ id s, scene.graph.find? id = some s →
        scene'.plainUpTo bound id = scene.plainUpTo bound id :=
      fun id s hs => ih hs (by simp) true
    have henclosing := h.enclosing_eq hg.toNested hg' hplain hctx hs
    have htype {t : Ty} (ht : t.WellFormed scene.graph) :
        scene'.typeUpTo bound ctx t = scene.typeUpTo bound ctx t :=
      h.typeUpTo_eq hg hg' hplain hctx ht
    have hvars {ts : List Ty} (hts : ∀ t ∈ ts, t.WellFormed scene.graph) :
        Rendering.separated "," (scene'.typeUpTo bound ctx) ts =
          Rendering.separated "," (scene.typeUpTo bound ctx) ts :=
      Rendering.Congruence.eq.separated "," fun t ht => htype (hts t ht)
    cases hd : s.detail with
    | space =>
      rw [symbolUpTo_space hs' hd, symbolUpTo_space hs hd, h.graph.root_eq,
        h.around_parent_eq hg.toRooted hplain hs]
    | aggregate a =>
      obtain ⟨_, names, _, hnames⟩ := hg.typeVars hs hd
      rw [symbolUpTo_aggregate hs' hd, symbolUpTo_aggregate hs hd, henclosing,
        h.niceName?_eq hg.toRooted hg' hs, hvars (hnames ▸ typeParams_wellFormed)]
    | method m =>
      have hm := hg.method hs hd
      obtain ⟨names, hnames⟩ := hm.typeVars
      cases ht : m.impl.target? with
      | some target =>
        obtain ⟨member, on⟩ := target
        obtain ⟨⟨s'', hs''⟩, hon⟩ := hm.impl.target ht
        have hslot : ∀ c ∈ some (slotContext on ctx), c.WellFormed scene.graph := by
          rintro _ ⟨rfl⟩
          exact .slotContext hon hctx
        rw [symbolUpTo_method_slot hs' hd ht, symbolUpTo_method_slot hs hd ht, henclosing,
          ih hs'' hslot]
      | none =>
        cases hp : m.property with
        | some owner =>
          obtain ⟨_, _, s'', _, hs'', _⟩ := hm.property hp
          rw [symbolUpTo_method_property hs' hd ht hp, symbolUpTo_method_property hs hd ht hp,
            ih hs'' hctx, h.propertyRole_eq hs'']
        | none =>
          cases he : m.event with
          | some owner =>
            obtain ⟨_, _, s'', _, hs'', _⟩ := hm.event he
            rw [symbolUpTo_method_event hs' hd ht hp he, symbolUpTo_method_event hs hd ht hp he,
              ih hs'' hctx, h.eventRole_eq hs'']
          | none =>
            have hname : scene'.methodName (scene'.typeUpTo bound ctx) s m =
                scene.methodName (scene.typeUpTo bound ctx) s m := by
              rw [h.methodName_eq hg.toRooted hs]
              exact scene.methodName_congr Rendering.Congruence.eq s
                (fun t ht => htype (hm.returns t ht)) fun t ht => htype (hm.impl.unresolved t ht)
            have harguments : scene'.methodArguments (scene'.typeUpTo bound ctx) id m =
                scene.methodArguments (scene.typeUpTo bound ctx) id m := by
              rw [h.methodArguments_eq hs]
              exact scene.methodArguments_congr Rendering.Congruence.eq id
                fun t ht => htype (hm.params t ht)
            rw [symbolUpTo_method hs' hd ht hp he, symbolUpTo_method hs hd ht hp he, henclosing,
              hname, harguments, hvars (hnames ▸ typeParams_wellFormed)]
    | property p =>
      have hp := hg.property hs hd
      cases ht : p.impl.target? with
      | some target =>
        obtain ⟨member, on⟩ := target
        obtain ⟨⟨s'', hs''⟩, hon⟩ := hp.impl.target ht
        have hslot : ∀ c ∈ some (slotContext on ctx), c.WellFormed scene.graph := by
          rintro _ ⟨rfl⟩
          exact .slotContext hon hctx
        rw [symbolUpTo_property_slot hs' hd ht, symbolUpTo_property_slot hs hd ht, henclosing,
          ih hs'' hslot]
      | none =>
        have hname : propertyName (scene'.typeUpTo bound ctx) s p =
            propertyName (scene.typeUpTo bound ctx) s p :=
          propertyName_congr Rendering.Congruence.eq s (fun t ht => htype (hp.params t ht))
            fun t ht => htype (hp.impl.unresolved t ht)
        rw [symbolUpTo_property hs' hd ht, symbolUpTo_property hs hd ht, henclosing, hname]
    | field => rw [symbolUpTo_field hs' hd, symbolUpTo_field hs hd, henclosing]
    | event e => rw [symbolUpTo_event hs' hd, symbolUpTo_event hs hd]
    | typeParameter t => rw [symbolUpTo_typeParameter hs' hd, symbolUpTo_typeParameter hs hd]
    | localVariable => rw [symbolUpTo_localVariable hs' hd, symbolUpTo_localVariable hs hd]
    | scope => rw [symbolUpTo_scope hs' hd, symbolUpTo_scope hs hd]

end

/-! ## Outcomes -/

section

variable (hg : scene.graph.Loaded) (hg' : scene'.graph.Loaded) (catalog : Catalog)
  {ctx : Option Context} (hctx : ∀ c ∈ ctx, c.WellFormed scene.graph)
include hg hg' hctx

/-- A symbol of the smaller graph comes to the same. -/
lemma finish_symbol_eq {id : SymId} {s : Symbol} (hs : scene.graph.find? id = some s)
    (args : Bool) :
    (scene'.symbol id ctx args).finish catalog = (scene.symbol id ctx args).finish catalog := by
  have hctx' := h.graph.context_wellFormed hg.toRooted hctx
  let bound := max scene.walkBound scene'.walkBound
  have hlarge : 2 * scene.graph.size < scene.walkBound := by unfold walkBound; omega
  have hlarge' : 2 * scene'.graph.size < scene'.walkBound := by unfold walkBound; omega
  calc (scene'.symbol id ctx args).finish catalog
      = (scene'.symbolUpTo bound id ctx args).finish catalog :=
        (symbolUpTo_agrees hg' hlarge' (Nat.le_max_right _ _) id hctx' args).finish_eq catalog
    _ = (scene.symbolUpTo bound id ctx args).finish catalog := by
        rw [h.symbolUpTo_eq hg hg'.toRooted bound hs hctx args]
    _ = (scene.symbol id ctx args).finish catalog :=
        ((symbolUpTo_agrees hg hlarge (Nat.le_max_left _ _) id hctx args).finish_eq catalog).symm

/-- A type over the smaller graph comes to the same. -/
lemma finish_type_eq {t : Ty} (ht : t.WellFormed scene.graph) :
    (scene'.type t ctx).finish catalog = (scene.type t ctx).finish catalog := by
  let bound := max scene.walkBound scene'.walkBound
  have hplain : ∀ id s, scene.graph.find? id = some s →
      scene'.plainUpTo bound id = scene.plainUpTo bound id :=
    fun id s hs => h.symbolUpTo_eq hg hg'.toRooted bound hs (by simp) true
  rw [finish_type_of_le hg' (Nat.le_max_right scene.walkBound _),
    finish_type_of_le hg (Nat.le_max_left _ scene'.walkBound),
    h.typeUpTo_eq hg hg'.toRooted hplain hctx ht]

end

end Scene.Within

/-- **What is rendered over a graph is rendered alike over a larger one**, by any closed renderers
that remember what is true of their graphs.

**Proof sketch.** What is remembered is true, so both walks ask the graphs themselves for bogus
signatures; and the scenes over the two graphs agree on all that is known in the smaller one. -/
theorem Subject.Loaded.render_within {g g' : Graph} {subject : Subject}
    (hsubject : subject.Loaded g) (h : g.Within g') (hg : g.Loaded) (hg' : g'.Loaded)
    (display : Display) {r r' : Renderer} (hr : r.session.isOpen = false)
    (hr' : r'.session.isOpen = false) (hmemo : r.memo.Sound g) (hmemo' : r'.memo.Sound g') :
    (r'.render g' display subject).1 = (r.render g display subject).1 := by
  rw [Renderer.render_fst hr, Renderer.render_fst hr', Memo.sound_iff.1 hmemo,
    Memo.sound_iff.1 hmemo']
  have hscene : Scene.Within ⟨g, display.niceNames, g.signatureBogus⟩
      ⟨g', display.niceNames, g'.signatureBogus⟩ :=
    ⟨h, rfl, fun hs => h.signatureBogus_eq hg hs⟩
  cases subject with
  | symbol id ctx args =>
    cases id with
    | none => exact hsubject.elim
    | some id =>
      obtain ⟨⟨s, hs⟩, hctx⟩ := hsubject
      exact hscene.finish_symbol_eq hg hg' display.catalog hctx hs args
  | type t ctx => exact hscene.finish_type_eq hg hg' display.catalog hsubject.2 hsubject.1

end DisplayNames
