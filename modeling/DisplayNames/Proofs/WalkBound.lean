import DisplayNames.Proofs.Outcome
import DisplayNames.Render.Symbol

/-!
# Bounded walks

The walk over a graph is bounded by a counter.  One step of the walk is put together from the walks
that are a step shorter, so a congruence between shorter walks carries over to longer ones.  A walk
with a larger bound is the same walk, unless the smaller bound was too small for it.

## Main definitions

* `DisplayNames.Scene.plainUpTo` — a symbol without a context, on a bounded walk.
* `DisplayNames.Scene.typeUpTo` — a type under a context, on a bounded walk.

## Main results

* `DisplayNames.Scene.symbolUpTo_some` — one step of a walk.
* `DisplayNames.Scene.symbolUpTo_succ_congr` — a congruence carries over to one more step.
* `DisplayNames.Scene.symbolUpTo_refines` — a larger bound changes nothing but walks that did not
  end.
-/

set_option relaxedAutoImplicit false
set_option autoImplicit false

namespace DisplayNames

namespace Scene

variable (scene : Scene) {R : Rendering → Rendering → Prop} (hR : Rendering.Congruence R)
include hR

/-! ## Parts of a step -/

section

variable {symbol symbol' : SymId → Rendering} (h : ∀ id, R (symbol id) (symbol' id))
include h

/-- A congruence between symbols carries over to what is displayed around a symbol. -/
lemma around_congr (parent : Option SymId) :
    R (scene.around symbol parent) (scene.around symbol' parent) := by
  cases parent with
  | none => exact hR.refl _
  | some parent =>
    unfold around
    dsimp only
    split
    · exact hR.refl _
    · exact hR.andThen (h parent) (hR.refl _)

/-- The same under a context. -/
lemma enclosing_congr (ctx : Option Context) (parent : Option SymId) :
    R (scene.enclosing symbol ctx parent) (scene.enclosing symbol' ctx parent) := by
  cases parent with
  | none => exact hR.refl _
  | some parent =>
    unfold enclosing
    dsimp only
    split
    · exact hR.refl _
    · split
      · exact hR.andThen ((renderBase_congr scene hR (scene.around_congr hR h)).2 _) (hR.refl _)
      · exact hR.andThen (h parent) (hR.refl _)

end

section

variable {type type' : Ty → Rendering}

/-- A congruence between types carries over to a type that may be absent. -/
lemma option_type_congr {t : Option Ty} (h : ∀ u ∈ t, R (type u) (type' u)) :
    R ((t.map type).getD .empty) ((t.map type').getD .empty) := by
  cases t with
  | none => exact hR.refl _
  | some t => exact h t rfl

/-- A congruence between the result types of methods, and between the types that stand for slots,
carries over to the own names of methods. -/
lemma methodName_congr (s : Symbol) {m : Method}
    (hreturns : ∀ t ∈ m.returns, R (type t) (type' t))
    (hunresolved : ∀ t ∈ m.impl.unresolved, R (type t) (type' t)) :
    R (scene.methodName type s m) (scene.methodName type' s m) := by
  unfold methodName
  dsimp only
  split
  · exact hR.refl _
  · split
    · exact hR.refl _
    · split
      · cases hresult : m.returns with
        | none => exact hR.refl _
        | some result =>
          exact hR.andThen (hR.refl _) (hR.andThen (hR.refl _) (hreturns result hresult))
      · split
        · exact hR.refl _
        · split
          · exact option_type_congr hR hunresolved
          · exact hR.refl _

/-- The same for the arguments of methods. -/
lemma methodArguments_congr (id : SymId) {m : Method}
    (hparams : ∀ t ∈ m.params, R (type t) (type' t)) :
    R (scene.methodArguments type id m) (scene.methodArguments type' id m) := by
  refine hR.andThen (hR.refl _) (hR.andThen (hR.refl _) (hR.andThen ?_ (hR.refl _)))
  split
  · exact hR.refl _
  · exact hR.paramList m.varargs m.paramArray hparams

omit scene in
/-- The same for indexers. -/
lemma indexerText_congr {p : Property} (hparams : ∀ t ∈ p.params, R (type t) (type' t)) :
    R (indexerText type p) (indexerText type' p) :=
  hR.andThen (hR.refl _) (hR.andThen (hR.paramList false p.paramArray hparams) (hR.refl _))

omit scene in
/-- The same for the own names of properties. -/
lemma propertyName_congr (s : Symbol) {p : Property}
    (hparams : ∀ t ∈ p.params, R (type t) (type' t))
    (hunresolved : ∀ t ∈ p.impl.unresolved, R (type t) (type' t)) :
    R (propertyName type s p) (propertyName type' s p) := by
  unfold propertyName
  split
  · refine hR.andThen (option_type_congr hR hunresolved) ?_
    split
    · exact hR.andThen (hR.refl _) (indexerText_congr hR hparams)
    · exact hR.refl _
  · split
    · exact indexerText_congr hR hparams
    · exact hR.refl _

end

/-! ## Steps -/

omit hR

/-- A symbol without a context, on a walk of at most `bound` symbols. -/
def plainUpTo (bound : Nat) (id : SymId) : Rendering := scene.symbolUpTo bound id none true

/-- A type under a context, on walks of at most `bound` symbols. -/
def typeUpTo (bound : Nat) (ctx : Option Context) (t : Ty) : Rendering :=
  renderTy scene (scene.around (scene.plainUpTo bound)) (t.subst ctx)

section

variable {scene} {bound : Nat} {id : SymId} {ctx : Option Context} {args : Bool} {s : Symbol}
  (hs : scene.graph.find? id = some s)
include hs

/-- A step to a symbol of any kind. -/
theorem symbolUpTo_some :
    scene.symbolUpTo (bound + 1) id ctx args =
      match s.detail with
      | .aggregate a =>
        match scene.niceName? id with
        | some nice => .literal nice
        | none => scene.enclosing (scene.plainUpTo bound) ctx s.parent >> nameText s.name
            >> angled a.typeVars fun _ => .separated "," (scene.typeUpTo bound ctx) a.typeVars
      | .method m =>
        match m.impl.target?, m.property, m.event with
        | some (member, on), _, _ =>
          scene.enclosing (scene.plainUpTo bound) ctx s.parent
            >> scene.symbolUpTo bound member (some (slotContext on ctx)) args
        | none, some owner, _ =>
          scene.symbolUpTo bound owner ctx true >> scene.propertyRole id s.name owner
        | none, none, some owner =>
          scene.symbolUpTo bound owner ctx true >> scene.eventRole id s.name owner
        | none, none, none =>
          scene.enclosing (scene.plainUpTo bound) ctx s.parent
            >> scene.methodName (scene.typeUpTo bound ctx) s m
            >> (angled m.typeVars fun _ => .separated "," (scene.typeUpTo bound ctx) m.typeVars)
            >> if args then scene.methodArguments (scene.typeUpTo bound ctx) id m else .empty
      | .property p =>
        scene.enclosing (scene.plainUpTo bound) ctx s.parent >>
          match p.impl.target? with
          | some (member, on) => scene.symbolUpTo bound member (some (slotContext on ctx)) true
          | none => propertyName (scene.typeUpTo bound ctx) s p
      | .event _ => .empty
      | .space =>
        if id = scene.graph.root then .phrase .globalNamespace
        else scene.around (scene.plainUpTo bound) s.parent >> nameText s.name
      | .field => scene.enclosing (scene.plainUpTo bound) ctx s.parent >> nameText s.name
      | .typeParameter t => typeParamText s.name t.index t.ofMethod
      | .localVariable => nameText s.name
      | .scope => .fail (.badSymbolKind (some .scope)) := by
  simp only [symbolUpTo, hs]
  rfl

/-- A step to a namespace. -/
lemma symbolUpTo_space (hd : s.detail = .space) :
    scene.symbolUpTo (bound + 1) id ctx args =
      if id = scene.graph.root then .phrase .globalNamespace
      else scene.around (scene.plainUpTo bound) s.parent >> nameText s.name := by
  simp only [symbolUpTo_some hs, hd]

/-- A step to an aggregate. -/
lemma symbolUpTo_aggregate {a : Aggregate} (hd : s.detail = .aggregate a) :
    scene.symbolUpTo (bound + 1) id ctx args =
      match scene.niceName? id with
      | some nice => .literal nice
      | none => scene.enclosing (scene.plainUpTo bound) ctx s.parent >> nameText s.name
          >> angled a.typeVars fun _ => .separated "," (scene.typeUpTo bound ctx) a.typeVars := by
  simp only [symbolUpTo_some hs, hd]

/-- A step to a method with a resolved slot. -/
lemma symbolUpTo_method_slot {m : Method} (hd : s.detail = .method m) {member : SymId}
    {on : Option Inst} (ht : m.impl.target? = some (member, on)) :
    scene.symbolUpTo (bound + 1) id ctx args =
      (scene.enclosing (scene.plainUpTo bound) ctx s.parent
        >> scene.symbolUpTo bound member (some (slotContext on ctx)) args) := by
  simp only [symbolUpTo_some hs, hd, ht]

/-- A step to an accessor of a property. -/
lemma symbolUpTo_method_property {m : Method} (hd : s.detail = .method m)
    (ht : m.impl.target? = none) {owner : SymId} (ho : m.property = some owner) :
    scene.symbolUpTo (bound + 1) id ctx args =
      (scene.symbolUpTo bound owner ctx true >> scene.propertyRole id s.name owner) := by
  simp only [symbolUpTo_some hs, hd, ht, ho]

/-- A step to an accessor of an event. -/
lemma symbolUpTo_method_event {m : Method} (hd : s.detail = .method m)
    (ht : m.impl.target? = none) (hp : m.property = none) {owner : SymId}
    (ho : m.event = some owner) :
    scene.symbolUpTo (bound + 1) id ctx args =
      (scene.symbolUpTo bound owner ctx true >> scene.eventRole id s.name owner) := by
  simp only [symbolUpTo_some hs, hd, ht, hp, ho]

/-- A step to any other method. -/
lemma symbolUpTo_method {m : Method} (hd : s.detail = .method m) (ht : m.impl.target? = none)
    (hp : m.property = none) (he : m.event = none) :
    scene.symbolUpTo (bound + 1) id ctx args =
      (scene.enclosing (scene.plainUpTo bound) ctx s.parent
        >> scene.methodName (scene.typeUpTo bound ctx) s m
        >> (angled m.typeVars fun _ => .separated "," (scene.typeUpTo bound ctx) m.typeVars)
        >> if args then scene.methodArguments (scene.typeUpTo bound ctx) id m else .empty) := by
  simp only [symbolUpTo_some hs, hd, ht, hp, he]

/-- A step to a property with a resolved slot. -/
lemma symbolUpTo_property_slot {p : Property} (hd : s.detail = .property p) {member : SymId}
    {on : Option Inst} (ht : p.impl.target? = some (member, on)) :
    scene.symbolUpTo (bound + 1) id ctx args =
      (scene.enclosing (scene.plainUpTo bound) ctx s.parent
        >> scene.symbolUpTo bound member (some (slotContext on ctx)) true) := by
  simp only [symbolUpTo_some hs, hd, ht]

/-- A step to any other property. -/
lemma symbolUpTo_property {p : Property} (hd : s.detail = .property p)
    (ht : p.impl.target? = none) :
    scene.symbolUpTo (bound + 1) id ctx args =
      (scene.enclosing (scene.plainUpTo bound) ctx s.parent
        >> propertyName (scene.typeUpTo bound ctx) s p) := by
  simp only [symbolUpTo_some hs, hd, ht]

/-- A step to a field. -/
lemma symbolUpTo_field (hd : s.detail = .field) :
    scene.symbolUpTo (bound + 1) id ctx args =
      (scene.enclosing (scene.plainUpTo bound) ctx s.parent >> nameText s.name) := by
  simp only [symbolUpTo_some hs, hd]

/-- A step to an event. -/
lemma symbolUpTo_event {e : Event} (hd : s.detail = .event e) :
    scene.symbolUpTo (bound + 1) id ctx args = .empty := by
  simp only [symbolUpTo_some hs, hd]

/-- A step to a type parameter. -/
lemma symbolUpTo_typeParameter {t : TypeParameter} (hd : s.detail = .typeParameter t) :
    scene.symbolUpTo (bound + 1) id ctx args = typeParamText s.name t.index t.ofMethod := by
  simp only [symbolUpTo_some hs, hd]

/-- A step to a local variable. -/
lemma symbolUpTo_localVariable (hd : s.detail = .localVariable) :
    scene.symbolUpTo (bound + 1) id ctx args = nameText s.name := by
  simp only [symbolUpTo_some hs, hd]

/-- A step to a scope. -/
lemma symbolUpTo_scope (hd : s.detail = .scope) :
    scene.symbolUpTo (bound + 1) id ctx args = .fail (.badSymbolKind (some .scope)) := by
  simp only [symbolUpTo_some hs, hd]

end

variable {scene} in
/-- A step to no symbol. -/
lemma symbolUpTo_none {bound : Nat} {id : SymId} {ctx : Option Context} {args : Bool}
    (hs : scene.graph.find? id = none) :
    scene.symbolUpTo (bound + 1) id ctx args = .fail (.badSymbolKind none) := by
  simp only [symbolUpTo, hs]

include hR

/-- **A congruence between walks with two bounds carries over to one more step.**

**Proof sketch.** What a step displays is put together from walks with the smaller bound, directly
or in front of types and members, and from what no bound has a part in.  A congruence carries over
to whatever is put together. -/
theorem symbolUpTo_succ_congr {bound bound' : Nat}
    (h : ∀ id ctx args,
      R (scene.symbolUpTo bound id ctx args) (scene.symbolUpTo bound' id ctx args))
    (id : SymId) (ctx : Option Context) (args : Bool) :
    R (scene.symbolUpTo (bound + 1) id ctx args) (scene.symbolUpTo (bound' + 1) id ctx args) := by
  have hplain : ∀ parent, R (scene.plainUpTo bound parent) (scene.plainUpTo bound' parent) :=
    fun parent => h parent none true
  have htype : ∀ t, R (scene.typeUpTo bound ctx t) (scene.typeUpTo bound' ctx t) :=
    fun t => renderTy_congr scene hR (scene.around_congr hR hplain) _
  have hparams (ts : List Ty) :
      R (angled ts fun _ => .separated "," (scene.typeUpTo bound ctx) ts)
        (angled ts fun _ => .separated "," (scene.typeUpTo bound' ctx) ts) :=
    hR.angled _ _ _ (hR.separated "," fun t _ => htype t)
  have henclosing := scene.enclosing_congr hR hplain ctx
  cases hs : scene.graph.find? id with
  | none =>
    rw [symbolUpTo_none hs, symbolUpTo_none hs]
    exact hR.refl _
  | some s =>
    rw [symbolUpTo_some hs, symbolUpTo_some hs]
    cases s.detail with
    | space =>
      dsimp only
      split
      · exact hR.refl _
      · exact hR.andThen (scene.around_congr hR hplain _) (hR.refl _)
    | aggregate a =>
      cases scene.niceName? id with
      | some nice => exact hR.refl _
      | none => exact hR.andThen (henclosing _) (hR.andThen (hR.refl _) (hparams a.typeVars))
    | method m =>
      dsimp only
      cases m.impl.target? with
      | some target => exact hR.andThen (henclosing _) (h _ _ _)
      | none =>
        cases m.property with
        | some owner => exact hR.andThen (h _ _ _) (hR.refl _)
        | none =>
          cases m.event with
          | some owner => exact hR.andThen (h _ _ _) (hR.refl _)
          | none =>
            have hname := scene.methodName_congr hR s (fun t (_ : t ∈ m.returns) => htype t)
              fun t (_ : t ∈ m.impl.unresolved) => htype t
            refine hR.andThen (henclosing _) (hR.andThen hname (hR.andThen (hparams _) ?_))
            split
            · exact scene.methodArguments_congr hR id fun t _ => htype t
            · exact hR.refl _
    | property p =>
      refine hR.andThen (henclosing _) ?_
      cases p.impl.target? with
      | some target => exact h _ _ _
      | none => exact propertyName_congr hR s (fun t _ => htype t) fun t _ => htype t
    | field => exact hR.andThen (henclosing _) (hR.refl _)
    | _ => exact hR.refl _

omit hR in
/-- **A larger bound changes nothing but walks that did not end.** -/
theorem symbolUpTo_refines {bound bound' : Nat} (hb : bound ≤ bound') (id : SymId)
    (ctx : Option Context) (args : Bool) :
    (scene.symbolUpTo bound id ctx args).Refines (scene.symbolUpTo bound' id ctx args) := by
  induction bound generalizing bound' id ctx args with
  | zero => exact .inl rfl
  | succ bound ih =>
    obtain ⟨bound', rfl⟩ : ∃ n, bound' = n + 1 := ⟨bound' - 1, by omega⟩
    exact scene.symbolUpTo_succ_congr Rendering.Refines.congruence
      (fun id ctx args => ih (by omega) id ctx args) id ctx args

end Scene

end DisplayNames
