import DisplayNames.Proofs.Completion
import DisplayNames.Proofs.SlotChain

/-!
# Failures

In a loaded graph a walk fails exactly if its chain of slots and owners ends in one of two kinds of
methods, and it does not end exactly if its chain does not.  Hence all bounds that are large enough
give the same rendering, up to walks that do not end, and the only errors that a document can cause
are those of conversions without a result and of unknown operators.

## Main definitions

* `DisplayNames.Graph.Defective` — the methods that cannot be displayed.

## Main results

* `DisplayNames.Scene.symbolUpTo_link` — a symbol with a link is displayed by what it leads to.
* `DisplayNames.Scene.stop_of_chain` — where a walk stops whose chain ends.
* `DisplayNames.Scene.stop_of_not_leads` — a walk whose chain does not end does not end either.
* `DisplayNames.Scene.symbolUpTo_agrees` — bounds above twice the size of the graph agree.
-/

set_option relaxedAutoImplicit false
set_option autoImplicit false

namespace DisplayNames

/-! ## Methods that cannot be displayed -/

/-- The method is displayed by a name of its own: it is neither a constructor nor a destructor nor
an accessor. -/
def Method.OwnName (m : Method) : Prop :=
  m.constructor = false ∧ m.destructor = false ∧ m.property = none ∧ m.event = none

/-- The methods that cannot be displayed, with the error that says so: conversions without a result,
and operators other than conversions whose name stands for no operator. -/
inductive Graph.Defective (g : Graph) (id : SymId) : RenderError → Prop
  | conversion {s : Symbol} {m : Method} : g.find? id = some s → s.detail = .method m →
    m.OwnName → m.conversion = true → m.returns = none →
      Defective g id (.conversionWithoutResult s.name)
  | operator {s : Symbol} {m : Method} : g.find? id = some s → s.detail = .method m →
    m.OwnName → m.conversion = false → m.operator = true →
      (Operator.ofMethodName s.name).symbol? = none → s.name ≠ some "op_Equals" →
        s.name ≠ some "op_Compare" → Defective g id (.unknownOperator s.name)

/-- Only methods are defective. -/
lemma Graph.Defective.method {g : Graph} {id : SymId} {s : Symbol} {e : RenderError}
    (h : g.Defective id e) (hs : g.find? id = some s) : ∃ m, s.detail = .method m ∧ m.OwnName := by
  cases h with
  | conversion hs' hd hown | operator hs' hd hown =>
    rw [hs, Option.some.injEq] at hs'
    exact ⟨_, hs' ▸ hd, hown⟩

/-- A method name stands for the equality or the comparison hook only if it is its name. -/
lemma Operator.eq_of_ofMethodName (name : Option String) :
    (ofMethodName name = .equals → name = some "op_Equals") ∧
      (ofMethodName name = .compare → name = some "op_Compare") := by
  have hentries : ∀ e ∈ methodNames, (e.2 = .equals → e.1 = "op_Equals") ∧
      (e.2 = .compare → e.1 = "op_Compare") := by decide
  cases name with
  | none => simp [ofMethodName]
  | some name =>
    cases hl : methodNames.lookup name with
    | none => simp [ofMethodName, hl]
    | some op =>
      obtain ⟨front, back, hentry, _⟩ := List.lookup_eq_some_iff.1 hl
      have hmem : (name, op) ∈ methodNames := by simp [hentry]
      simpa [ofMethodName, hl] using hentries _ hmem

/-- Nothing is displayed behind the word `operator` exactly if the name has no symbol and is none of
the two hooks. -/
lemma Operator.displayOfMethod?_eq_none {name : Option String} :
    displayOfMethod? name = none ↔ (ofMethodName name).symbol? = none ∧
      name ≠ some "op_Equals" ∧ name ≠ some "op_Compare" := by
  obtain ⟨hequals, hcompare⟩ := eq_of_ofMethodName name
  unfold displayOfMethod?
  constructor
  · intro h
    split at h
    · simp at h
    · simp at h
    · refine ⟨h, ?_, ?_⟩
      · rintro rfl
        exact absurd (by decide) ‹ofMethodName (some "op_Equals") = .equals → False›
      · rintro rfl
        exact absurd (by decide) ‹ofMethodName (some "op_Compare") = .compare → False›
  · rintro ⟨hsymbol, hne, hne'⟩
    split
    · exact absurd (hequals ‹_›) hne
    · exact absurd (hcompare ‹_›) hne'
    · exact hsymbol

/-- A method is defective if it is displayed by its own name and is a conversion without a result,
or no conversion and an operator without a display. -/
lemma Graph.defective_iff {g : Graph} {id : SymId} {s : Symbol} (hs : g.find? id = some s)
    {m : Method} (hd : s.detail = .method m) {e : RenderError} :
    g.Defective id e ↔ m.OwnName ∧
      (m.conversion = true ∧ m.returns = none ∧ e = .conversionWithoutResult s.name ∨
        m.conversion = false ∧ m.operator = true ∧ Operator.displayOfMethod? s.name = none ∧
          e = .unknownOperator s.name) := by
  constructor
  · rintro (⟨hs', hd', hown, hconversion, hreturns⟩ |
      ⟨hs', hd', hown, hconversion, hoperator, hsymbol, hne, hne'⟩)
    all_goals
      rw [hs, Option.some.injEq] at hs'
      subst hs'
      rw [hd, Detail.method.injEq] at hd'
      subst hd'
    · exact ⟨hown, .inl ⟨hconversion, hreturns, rfl⟩⟩
    · exact ⟨hown, .inr ⟨hconversion, hoperator,
        Operator.displayOfMethod?_eq_none.2 ⟨hsymbol, hne, hne'⟩, rfl⟩⟩
  · rintro ⟨hown, ⟨hconversion, hreturns, rfl⟩ | ⟨hconversion, hoperator, hdisplay, rfl⟩⟩
    · exact .conversion hs hd hown hconversion hreturns
    · obtain ⟨hsymbol, hne, hne'⟩ := Operator.displayOfMethod?_eq_none.1 hdisplay
      exact .operator hs hd hown hconversion hoperator hsymbol hne hne'

namespace Scene

variable {scene : Scene}

/-! ## Single symbols -/

section

variable (h : scene.graph.Loaded)
include h

/-- The parent of a member other than an aggregate is an aggregate. -/
lemma parent_aggregate {id : SymId} {s : Symbol} (hs : scene.graph.find? id = some s)
    (hkind : s.kind ≠ .space ∧ s.kind ≠ .aggregate) :
    ∃ parent around, s.parent = some parent ∧ scene.graph.find? parent = some around ∧
      around.kind = .aggregate := by
  have hid : id ≠ .root := by
    rintro rfl
    rw [h.root_symbol, Option.some.injEq] at hs
    exact hkind.1 (hs ▸ rfl)
  obtain ⟨parent, around, hparent, haround, henc, _⟩ := h.parent hs hid
  refine ⟨parent, around, hparent, haround, ?_⟩
  rcases SymbolKind.outer_of_encloses henc with hspace | haggregate
  · rw [hspace, SymbolKind.space_encloses] at henc
    exact absurd henc (not_or.2 hkind)
  · exact haggregate

/-- No symbol of a loaded graph is a scope. -/
lemma detail_ne_scope {id : SymId} {s : Symbol} (hs : scene.graph.find? id = some s) :
    s.detail ≠ .scope := by
  intro hd
  have hkind : s.kind = .scope := by rw [Symbol.kind, hd, Detail.kind]
  have hid : id ≠ .root := by
    rintro rfl
    rw [h.root_symbol, Option.some.injEq] at hs
    simp [← hs] at hd
  obtain ⟨_, around, _, _, henc, _⟩ := h.parent hs hid
  rw [hkind, SymbolKind.encloses_scope] at henc
  exact absurd henc Bool.false_ne_true

/-- Where the own name of a method stops: at the defect of the method, if it has one.

**Proof sketch.** The cases of the name.  A constructor and a destructor are named after the
aggregate around the method, which is there; a conversion needs a result and an operator a known
name, and these are the defects; all other names go through. -/
lemma stop_methodName {type : Ty → Rendering}
    (htype : ∀ t : Ty, t.WellFormed scene.graph → (type t).stop = none) {id : SymId} {s : Symbol}
    (hs : scene.graph.find? id = some s) {m : Method} (hd : s.detail = .method m)
    (hproperty : m.property = none) (hevent : m.event = none) (fault : Fault) :
    (scene.methodName type s m).stop = some fault ↔
      ∃ e, fault = .broken e ∧ scene.graph.Defective id e := by
  have hm := h.method hs hd
  have hkind : s.kind = .method := by rw [Symbol.kind, hd, Detail.kind]
  obtain ⟨parent, around, hparent, haround, hk⟩ :=
    parent_aggregate h hs (by rw [hkind]; decide)
  have hclass : (s.parent.bind scene.graph.find?).filter (·.kind == .aggregate) = some around := by
    simp [hparent, haround, hk]
  have hunresolved : ((m.impl.unresolved.map type).getD .empty).stop = none := by
    cases hu : m.impl.unresolved with
    | none => rfl
    | some t => exact htype t (hm.impl.unresolved t hu)
  simp only [Graph.defective_iff hs hd, Method.OwnName, hproperty, hevent]
  unfold methodName
  rw [hclass]
  dsimp only
  cases hconstructor : m.constructor with
  | true => simp
  | false =>
    cases hdestructor : m.destructor with
    | true => simp
    | false =>
      cases hconversion : m.conversion with
      | true =>
        cases hreturns : m.returns with
        | none => simpa using eq_comm
        | some result => simp [htype result (hm.returns result hreturns)]
      | false =>
        cases hoperator : m.operator with
        | true =>
          cases hdisplay : Operator.displayOfMethod? s.name with
          | none => simpa using eq_comm
          | some symbol => simp
        | false => cases hdeclared : m.impl.declared <;> simp [hunresolved]

omit h in
/-- The arguments of a method go through. -/
lemma stop_methodArguments {type : Ty → Rendering}
    (htype : ∀ t : Ty, t.WellFormed scene.graph → (type t).stop = none) (id : SymId) {m : Method}
    (hparams : ∀ t ∈ m.params, t.WellFormed scene.graph) :
    (scene.methodArguments type id m).stop = none := by
  have hlist := stop_paramList m.varargs m.paramArray fun t ht => htype t (hparams t ht)
  unfold methodArguments
  split <;> simp [hlist]

/-- The own name of a property goes through. -/
lemma stop_propertyName {type : Ty → Rendering}
    (htype : ∀ t : Ty, t.WellFormed scene.graph → (type t).stop = none) {id : SymId} {s : Symbol}
    (hs : scene.graph.find? id = some s) {p : Property} (hd : s.detail = .property p) :
    (propertyName type s p).stop = none := by
  have hp := h.property hs hd
  have hlist := stop_paramList false p.paramArray fun t ht => htype t (hp.params t ht)
  have hunresolved : ((p.impl.unresolved.map type).getD .empty).stop = none := by
    cases hu : p.impl.unresolved with
    | none => rfl
    | some t => exact htype t (hp.impl.unresolved t hu)
  cases hdeclared : p.impl.declared <;> cases hindexer : p.indexer <;>
    simp [propertyName, indexerText, hdeclared, hindexer, hlist, hunresolved]

/-- The role of an accessor of a property goes through. -/
lemma stop_propertyRole {id : SymId} {s : Symbol} (hs : scene.graph.find? id = some s)
    {m : Method} (hd : s.detail = .method m) {owner : SymId} (howner : m.property = some owner) :
    (scene.propertyRole id s.name owner).stop = none := by
  obtain ⟨_, _, s', p, hs', hp, _, hknows⟩ := (h.method hs hd).property howner
  have hproperty : s'.property? = some p := by simp [Symbol.property?, hp]
  unfold propertyRole
  simp only [hs', Option.bind_some, hproperty, Option.getD_some]
  split
  · rfl
  · rename_i hget
    rw [if_pos (hknows.resolve_left hget)]
    rfl

/-- The role of an accessor of an event goes through. -/
lemma stop_eventRole {id : SymId} {s : Symbol} (hs : scene.graph.find? id = some s)
    {m : Method} (hd : s.detail = .method m) {owner : SymId} (howner : m.event = some owner) :
    (scene.eventRole id s.name owner).stop = none := by
  obtain ⟨_, _, s', e, hs', he, _, hknows⟩ := (h.method hs hd).event howner
  have hevent : s'.event? = some e := by simp [Symbol.event?, he]
  unfold eventRole
  simp only [hs', Option.bind_some, hevent, Option.getD_some]
  split
  · rfl
  · rename_i hadd
    rw [if_pos (hknows.resolve_left hadd)]
    rfl

/-! ## Walks -/

section

variable {P : Option Context → Prop} (hP : scene.Passes P) {ctx : Option Context} (hctx : P ctx)
  (args : Bool)
include hP hctx

/-- A symbol other than a method goes through, if it has no slot.

**Proof sketch.** A case for each kind of symbol.  What is inside the name of a symbol are types of
the graph, which are well-formed and go through, and so does what stands in front of it. -/
lemma stop_of_not_method {bound : Nat} (hb : scene.graph.size ≤ bound) {id : SymId} {s : Symbol}
    (hs : scene.graph.find? id = some s) (hmethod : ∀ m, s.detail ≠ .method m)
    (hnext : scene.graph.next? id = none) :
    (scene.symbolUpTo (bound + 1) id ctx args).stop = none := by
  have henclosing := hP.enclosing hctx hb hs
  have htype : ∀ t : Ty, t.WellFormed scene.graph → (scene.typeUpTo bound ctx t).stop = none :=
    fun t ht => hP.type hctx hb ht
  cases hd : s.detail with
  | space =>
    have haround : (scene.enclosing (scene.plainUpTo bound) none s.parent).stop = none :=
      stop_enclosing h.toNested hb (by simp) hs
    rw [enclosing_none] at haround
    rw [symbolUpTo_space hs hd]
    split
    · rfl
    · simp [haround]
  | aggregate a =>
    obtain ⟨_, names, _, hvars⟩ := h.typeVars hs hd
    have hparams : (Rendering.separated "," (scene.typeUpTo bound ctx) a.typeVars).stop = none :=
      Rendering.stop_separated "," _ fun t ht => htype t (typeParams_wellFormed t (hvars ▸ ht))
    rw [symbolUpTo_aggregate hs hd]
    split
    · rfl
    · simp [henclosing, hparams]
  | method m => exact absurd hd (hmethod m)
  | property p =>
    rw [Graph.next?_property hs hd, Option.map_eq_none_iff] at hnext
    rw [symbolUpTo_property hs hd hnext]
    simp [henclosing, stop_propertyName h htype hs hd]
  | field =>
    rw [symbolUpTo_field hs hd]
    simp [henclosing]
  | event e =>
    rw [symbolUpTo_event hs hd]
    rfl
  | typeParameter t =>
    rw [symbolUpTo_typeParameter hs hd]
    simp
  | localVariable =>
    rw [symbolUpTo_localVariable hs hd]
    simp
  | scope => exact absurd hd (detail_ne_scope h hs)

omit hP hctx in
/-- An accessor of an event goes through: it is displayed as its role alone. -/
lemma stop_of_event {bound : Nat} (hb : scene.graph.size ≤ bound) {id : SymId} {s : Symbol}
    (hs : scene.graph.find? id = some s) {m : Method} (hd : s.detail = .method m)
    (htarget : m.impl.target? = none) (hproperty : m.property = none) {owner : SymId}
    (hevent : m.event = some owner) :
    (scene.symbolUpTo (bound + 1) id ctx args).stop = none := by
  obtain ⟨_, _, s', e, hs', he, _⟩ := (h.method hs hd).event hevent
  obtain ⟨bound, rfl⟩ : ∃ n, bound = n + 1 := ⟨bound - 1, by have := h.depth hs; omega⟩
  rw [symbolUpTo_method_event hs hd htarget hproperty hevent, symbolUpTo_event hs' he]
  simp [stop_eventRole h hs hd hevent]

/-- A method that is displayed by itself stops at its own name, if at all. -/
lemma stop_of_method {bound : Nat} (hb : scene.graph.size ≤ bound) {id : SymId} {s : Symbol}
    (hs : scene.graph.find? id = some s) {m : Method} (hd : s.detail = .method m)
    (htarget : m.impl.target? = none) (hproperty : m.property = none) (hevent : m.event = none)
    (fault : Fault) :
    (scene.symbolUpTo (bound + 1) id ctx args).stop = some fault ↔
      ∃ e, fault = .broken e ∧ scene.graph.Defective id e := by
  have hm := h.method hs hd
  have henclosing := hP.enclosing hctx hb hs
  have htype : ∀ t : Ty, t.WellFormed scene.graph → (scene.typeUpTo bound ctx t).stop = none :=
    fun t ht => hP.type hctx hb ht
  obtain ⟨names, hvars⟩ := hm.typeVars
  have hparams : (Rendering.separated "," (scene.typeUpTo bound ctx) m.typeVars).stop = none :=
    Rendering.stop_separated "," _ fun t ht => htype t (typeParams_wellFormed t (hvars ▸ ht))
  have harguments := stop_methodArguments htype id hm.params
  rw [symbolUpTo_method hs hd htarget hproperty hevent,
    ← stop_methodName h htype hs hd hproperty hevent]
  cases args <;> simp [henclosing, hparams, harguments]

/-- **Where the walk to a symbol stops that ends its chain**: at its defect, if it has one.

**Proof sketch.** Only methods that are displayed by their own name are defective, and these stop at
that name.  All other symbols go through, and so do the parts of methods around the name. -/
lemma stop_of_next?_eq_none {bound : Nat} (hb : scene.graph.size ≤ bound) {id : SymId}
    {s : Symbol} (hs : scene.graph.find? id = some s) (hnext : scene.graph.next? id = none)
    (fault : Fault) :
    (scene.symbolUpTo (bound + 1) id ctx args).stop = some fault ↔
      ∃ e, fault = .broken e ∧ scene.graph.Defective id e := by
  have hthrough (hown : ∀ m, s.detail = .method m → ¬ m.OwnName)
      (hstop : (scene.symbolUpTo (bound + 1) id ctx args).stop = none) :
      (scene.symbolUpTo (bound + 1) id ctx args).stop = some fault ↔
        ∃ e, fault = .broken e ∧ scene.graph.Defective id e := by
    rw [hstop]
    refine ⟨fun hfault => by simp at hfault, ?_⟩
    rintro ⟨e, rfl, hdefect⟩
    obtain ⟨m, hm, hname⟩ := hdefect.method hs
    exact absurd hname (hown m hm)
  by_cases hmethod : ∃ m, s.detail = .method m
  · obtain ⟨m, hd⟩ := hmethod
    have hends := hnext
    rw [Graph.next?_method hs hd, Option.or_eq_none_iff, Option.map_eq_none_iff] at hends
    obtain ⟨htarget, hproperty⟩ := hends
    cases hevent : m.event with
    | some owner =>
      refine hthrough ?_ (stop_of_event h args hb hs hd htarget hproperty hevent)
      rintro m' hd' ⟨_, _, _, hevent'⟩
      rw [hd, Detail.method.injEq] at hd'
      rw [← hd', hevent] at hevent'
      cases hevent'
    | none => exact stop_of_method h hP hctx args hb hs hd htarget hproperty hevent fault
  · have hother : ∀ m, s.detail ≠ .method m := fun m hd => hmethod ⟨m, hd⟩
    exact hthrough (fun m hd => absurd hd (hother m))
      (stop_of_not_method h hP hctx args hb hs hother hnext)

/-- **A symbol with a link is displayed by the symbol that the link leads to**, behind what stands
in front of the symbol, or in front of a role that goes through.  The context of a slot is of the
same class.

**Proof sketch.** A link leads to the member of a slot, which is displayed behind what stands in
front of the symbol, or from an accessor to its property, which is displayed in front of the
role. -/
theorem symbolUpTo_link {id id' : SymId} (hnext : scene.graph.next? id = some id')
    {s : Symbol} (hs : scene.graph.find? id = some s) (bound : Nat) :
    ∃ ctx' args', P ctx' ∧
      (scene.symbolUpTo (bound + 1) id ctx args =
          (scene.enclosing (scene.plainUpTo bound) ctx s.parent
            >> scene.symbolUpTo bound id' ctx' args') ∨
        ∃ role : Rendering, role.stop = none ∧
          scene.symbolUpTo (bound + 1) id ctx args =
            (scene.symbolUpTo bound id' ctx' args' >> role)) := by
  cases hd : s.detail with
  | method m =>
    rw [Graph.next?_method hs hd] at hnext
    cases ht : m.impl.target? with
    | some target =>
      obtain ⟨member, on⟩ := target
      simp only [ht, Option.map_some, Option.some_or, Option.some.injEq] at hnext
      subst hnext
      exact ⟨_, args, hP.slot hctx ((h.method hs hd).impl.target ht).2,
        .inl (symbolUpTo_method_slot hs hd ht)⟩
    | none =>
      simp only [ht, Option.map_none, Option.none_or] at hnext
      exact ⟨ctx, true, hctx, .inr ⟨_, stop_propertyRole h hs hd hnext,
        symbolUpTo_method_property hs hd ht hnext⟩⟩
  | property p =>
    rw [Graph.next?_property hs hd] at hnext
    obtain ⟨⟨member, on⟩, ht, rfl⟩ := Option.map_eq_some_iff.1 hnext
    exact ⟨_, true, hP.slot hctx ((h.property hs hd).impl.target ht).2,
      .inl (symbolUpTo_property_slot hs hd ht)⟩
  | _ => simp [Graph.next?, hs, hd] at hnext

/-- **Where a walk stops whose chain ends**: at the defect of the last symbol, if it has one.

**Proof sketch.** Induction on the chain.  What stands in front of a symbol and the role of an
accessor go through, so a link stops where the symbol stops that it leads to. -/
theorem stop_of_chain {links : Nat} {id last : SymId}
    (hleads : scene.graph.LeadsIn links id last) {bound : Nat}
    (hb : scene.graph.size + links ≤ bound) {s : Symbol} (hs : scene.graph.find? id = some s)
    (fault : Fault) :
    (scene.symbolUpTo (bound + 1) id ctx args).stop = some fault ↔
      ∃ e, fault = .broken e ∧ scene.graph.Defective last e := by
  induction hleads generalizing bound ctx args s with
  | here hnext => exact stop_of_next?_eq_none h hP hctx args (by omega) hs hnext fault
  | @next links id id' last hnext _ ih =>
    obtain ⟨bound, rfl⟩ : ∃ n, bound = n + 1 := ⟨bound - 1, by omega⟩
    obtain ⟨s', hs'⟩ := h.next?_known hnext
    have henclosing := hP.enclosing hctx (by omega : scene.graph.size ≤ bound + 1) hs
    obtain ⟨ctx', args', hctx', hfront | ⟨role, hrole, hback⟩⟩ :=
      symbolUpTo_link h hP hctx args hnext hs (bound + 1)
    · rw [hfront, Rendering.stop_andThen, henclosing, Option.none_or]
      exact ih hctx' args' (by omega) hs'
    · rw [hback, Rendering.stop_andThen, hrole, Option.or_none]
      exact ih hctx' args' (by omega) hs'

end

/-- The same under well-formed contexts. -/
lemma stop_of_leadsIn {links : Nat} {id last : SymId}
    (hleads : scene.graph.LeadsIn links id last) {bound : Nat}
    (hb : scene.graph.size + links ≤ bound) {ctx : Option Context}
    (hctx : ∀ c ∈ ctx, c.WellFormed scene.graph) (args : Bool) {s : Symbol}
    (hs : scene.graph.find? id = some s) (fault : Fault) :
    (scene.symbolUpTo (bound + 1) id ctx args).stop = some fault ↔
      ∃ e, fault = .broken e ∧ scene.graph.Defective last e :=
  stop_of_chain h (passes_wellFormed h.toNested) hctx args hleads hb hs fault

/-- What stands in front of a symbol goes through or does not end, whatever the bound. -/
lemma stop_enclosing_cases (bound : Nat) {ctx : Option Context}
    (hctx : ∀ c ∈ ctx, c.WellFormed scene.graph) {id : SymId} {s : Symbol}
    (hs : scene.graph.find? id = some s) :
    (scene.enclosing (scene.plainUpTo bound) ctx s.parent).stop = none ∨
      (scene.enclosing (scene.plainUpTo bound) ctx s.parent).stop = some .endless := by
  have hle : bound ≤ bound + scene.graph.size := by omega
  have hrefines := scene.enclosing_congr Rendering.Refines.congruence
    (fun parent => scene.symbolUpTo_refines hle parent none true) ctx s.parent
  rcases hrefines with hendless | heq
  · exact .inr hendless
  · refine .inl ((congrArg Rendering.stop heq).trans ?_)
    exact stop_enclosing h.toNested (by omega) hctx hs

/-- **A walk whose chain does not end does not end either**, whatever the bound.

**Proof sketch.** Induction on the bound.  The chain goes on, so the walk passes a link, and the
rest of the walk stops as the chain from the next symbol does.  What may come first, around the
symbol, goes through or is endless itself. -/
theorem stop_of_not_leads {id : SymId} (hnot : ∀ last, ¬ scene.graph.Leads id last) (bound : Nat)
    {ctx : Option Context} (hctx : ∀ c ∈ ctx, c.WellFormed scene.graph) (args : Bool) {s : Symbol}
    (hs : scene.graph.find? id = some s) :
    (scene.symbolUpTo bound id ctx args).stop = some .endless := by
  induction bound generalizing id ctx args s with
  | zero => rfl
  | succ bound ih =>
    cases hnext : scene.graph.next? id with
    | none => exact absurd ⟨0, .here hnext⟩ (hnot id)
    | some id' =>
      have hnot' : ∀ last, ¬ scene.graph.Leads id' last := fun last ⟨links, hleads⟩ =>
        hnot last ⟨links + 1, .next hnext hleads⟩
      obtain ⟨s', hs'⟩ := h.next?_known hnext
      obtain ⟨ctx', args', hctx', hfront | ⟨role, _, hback⟩⟩ :=
        symbolUpTo_link h (passes_wellFormed h.toNested) hctx args hnext hs bound
      · have hrest := ih hnot' hctx' args' hs'
        rw [hfront, Rendering.stop_andThen]
        rcases stop_enclosing_cases h bound hctx hs with henclosing | henclosing <;>
          simp [henclosing, hrest]
      · rw [hback, Rendering.stop_andThen, ih hnot' hctx' args' hs', Option.some_or]

/-- **Bounds above twice the size of the graph agree.**

**Proof sketch.** A larger bound only changes walks that were cut off.  If the chain ends, it ends
within the size of the graph, and the walk was not cut off; if it does not, no bound is enough. -/
theorem symbolUpTo_agrees {bound bound' : Nat} (hb : 2 * scene.graph.size < bound)
    (hle : bound ≤ bound') (id : SymId) {ctx : Option Context}
    (hctx : ∀ c ∈ ctx, c.WellFormed scene.graph) (args : Bool) :
    (scene.symbolUpTo bound id ctx args).Agrees (scene.symbolUpTo bound' id ctx args) := by
  rcases scene.symbolUpTo_refines hle id ctx args with hendless | heq
  · obtain ⟨bound, rfl⟩ : ∃ n, bound = n + 1 := ⟨bound - 1, by omega⟩
    cases hs : scene.graph.find? id with
    | none =>
      rw [symbolUpTo_none hs] at hendless
      simp at hendless
    | some s =>
      by_cases hleads : ∃ last, scene.graph.Leads id last
      · obtain ⟨last, links, hleads⟩ := hleads
        have hlt := hleads.lt_size h hs
        obtain ⟨e, he, _⟩ := (stop_of_leadsIn h hleads (by omega) hctx args hs .endless).1 hendless
        cases he
      · rw [not_exists] at hleads
        exact .inr ⟨hendless, stop_of_not_leads h hleads bound' hctx args hs⟩
  · exact .inl heq

/-- **The errors of a symbol in a loaded graph**: it fails exactly if its chain ends in a defective
method, and with the error of that method. -/
lemma stop_symbol {id : SymId} {s : Symbol} (hs : scene.graph.find? id = some s)
    {ctx : Option Context} (hctx : ∀ c ∈ ctx, c.WellFormed scene.graph) (args : Bool)
    (e : RenderError) :
    (scene.symbol id ctx args).stop = some (.broken e) ↔
      ∃ last, scene.graph.Leads id last ∧ scene.graph.Defective last e := by
  unfold symbol walkBound
  constructor
  · intro hstop
    by_cases hleads : ∃ last, scene.graph.Leads id last
    · obtain ⟨last, links, hleads⟩ := hleads
      have hlt := hleads.lt_size h hs
      obtain ⟨e', he, hdefect⟩ :=
        (stop_of_leadsIn h hleads (by omega) hctx args hs (.broken e)).1 hstop
      exact ⟨last, ⟨links, hleads⟩, Fault.broken.inj he ▸ hdefect⟩
    · rw [not_exists] at hleads
      rw [stop_of_not_leads h hleads _ hctx args hs] at hstop
      simp at hstop
  · rintro ⟨last, ⟨links, hleads⟩, hdefect⟩
    have hlt := hleads.lt_size h hs
    exact (stop_of_leadsIn h hleads (by omega) hctx args hs (.broken e)).2 ⟨e, rfl, hdefect⟩

/-- A well-formed type goes through under well-formed contexts. -/
lemma stop_type {t : Ty} (ht : t.WellFormed scene.graph) {ctx : Option Context}
    (hctx : ∀ c ∈ ctx, c.WellFormed scene.graph) : (scene.type t ctx).stop = none :=
  stop_typeUpTo h.toNested (by unfold walkBound; omega : scene.graph.size ≤ scene.walkBound) hctx ht

end

end Scene

end DisplayNames
