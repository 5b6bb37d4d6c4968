import DisplayNames.Proofs.IdentityInstantiation

/-!
# Entries that are never looked up

What a symbol is displayed as depends on a context only through the entries for the positions that
occur in its declaration: in its own type parameters and those around it, in its parameters, its
result and the interface that it implements explicitly.  Two contexts that agree at these positions
have the same effect on every type that shows, so that it makes no difference which of them is
given, although a context that is absent or has no entries is treated on a path of its own.

## Main definitions

* `DisplayNames.Context.AgreeBelow` — contexts with the same entries at the leading positions.
* `DisplayNames.Ty.Within` — types whose parameters have leading positions.
* `DisplayNames.Graph.relevantTypes` — the types in the declaration of a symbol.

## Main results

* `DisplayNames.Ty.subst_of_agree` — contexts that agree have the same effect.
* `DisplayNames.Scene.symbol_of_agree` — they display a symbol alike.
* `DisplayNames.Document.render_relevant` — symbols of accepted documents.
-/

set_option relaxedAutoImplicit false
set_option autoImplicit false

namespace DisplayNames

/-! ## Contexts that agree -/

/-- Two contexts have the same entries, or none, for the leading positions of both kinds. -/
def Context.AgreeBelow (ofType ofMethod : Nat) (a b : Context) : Prop :=
  (∀ i < ofType, a.ofType[i]? = b.ofType[i]?) ∧ ∀ i < ofMethod, a.ofMethod[i]? = b.ofMethod[i]?

/-- The positions of all parameters in a type are below the bound for their kind. -/
def Ty.Within (ofType ofMethod : Nat) (t : Ty) : Prop :=
  ∀ i m n, .param i m n ∈ t.parts → i.value < ((if m then ofMethod else ofType : Nat) : Int)

section

variable {ofType ofMethod : Nat}

/-- Contexts that agree below the bounds have the same entry for a position below them. -/
lemma Context.AgreeBelow.find?_eq {a b : Context} (h : a.AgreeBelow ofType ofMethod b)
    {i : Ordinal} {m : Bool} (hi : i.value < ((if m then ofMethod else ofType : Nat) : Int)) :
    a.find? i m = b.find? i m := by
  unfold find?
  by_cases hneg : i.value < 0
  · rw [if_pos hneg, if_pos hneg]
  · rw [if_neg hneg, if_neg hneg]
    cases m with
    | false => exact h.1 i.value.toNat (by simp at hi; omega)
    | true => exact h.2 i.value.toNat (by simp at hi; omega)

/-- Substitution is the replacement under the context in effect, also if it covers nothing. -/
lemma Ty.subst_eq_replace (ctx : Option Context) (t : Ty) :
    t.subst ctx = t.replace (Context.effective ctx) := by
  have hnop {c : Context} (h : c.isNop = true) : t.replace c = t :=
    replace_of_keeps t fun i m n _ => by rw [Context.find?_of_isNop h, Option.getD_none]
  cases ctx with
  | none => exact (hnop rfl).symm
  | some c =>
    rw [subst_some]
    split
    · exact (hnop ‹_›).symm
    · rfl

/-- **Contexts that agree have the same effect** on the types with no other positions. -/
theorem Ty.subst_of_agree {t : Ty} (ht : t.Within ofType ofMethod) {ctx ctx' : Option Context}
    (h : (Context.effective ctx).AgreeBelow ofType ofMethod (Context.effective ctx')) :
    t.subst ctx = t.subst ctx' := by
  rw [subst_eq_replace, subst_eq_replace]
  exact replace_congr fun i m n hp => h.find?_eq (ht i m n hp)

end

/-! ## The types in a declaration -/

/-- The type of the interface that is implemented explicitly. -/
def ExplicitImpl.slotType? (impl : ExplicitImpl) : Option Ty :=
  (impl.slot.bind Slot.on).map Ty.aggregate

/-- The types in the declaration of a symbol: its own type parameters, its parameters, its result
and the interface that it implements explicitly. -/
def Symbol.declaredTypes (s : Symbol) : List Ty :=
  match s.detail with
  | .aggregate a => a.typeVars
  | .method m => m.typeVars ++ m.params ++ m.returns.toList ++ m.impl.slotType?.toList
  | .property p => p.params ++ p.impl.slotType?.toList
  | _ => []

/-- The types that a context can matter for in the name of a symbol: the type parameters around it
and the types in its declaration and, for an accessor, in that of its property. -/
def Graph.relevantTypes (g : Graph) (s : Symbol) : List Ty :=
  (s.parent.map g.typeVarsAll).getD [] ++ s.declaredTypes ++
    (((s.method?.bind Method.property).bind g.find?).map Symbol.declaredTypes).getD []

/-- A stored type is in the declaration or stands for a slot that did not resolve. -/
lemma Symbol.mem_types {s : Symbol} {t : Ty} (ht : t ∈ s.types) :
    t ∈ s.declaredTypes ∨ ∃ impl ∈ s.impl?, t ∈ impl.unresolved := by
  unfold types at ht
  unfold declaredTypes impl?
  cases hd : s.detail with
  | aggregate a => exact .inl (by simpa only [hd] using ht)
  | method m =>
    simp only [hd, ExplicitImpl.types, ExplicitImpl.slotType?, ← List.append_assoc] at ht ⊢
    rcases List.mem_append.1 ht with ht | ht
    · exact .inl ht
    · exact .inr ⟨m.impl, rfl, Option.mem_toList.1 ht⟩
  | property p =>
    simp only [hd, ExplicitImpl.types, ExplicitImpl.slotType?, ← List.append_assoc] at ht ⊢
    rcases List.mem_append.1 ht with ht | ht
    · exact .inl ht
    · exact .inr ⟨p.impl, rfl, Option.mem_toList.1 ht⟩
  | _ => simp [hd] at ht

namespace Document

/-- What a document writes for a slot that did not resolve has no parameters. -/
lemma resolveImpl_unresolved {names : Names} {pending : Pending} {impl : ExplicitImpl}
    (himpl : resolveImpl names pending = .ok impl) (ofType ofMethod : Nat) :
    ∀ t ∈ impl.unresolved, t.Within ofType ofMethod := by
  intro t ht
  unfold resolveImpl at himpl
  split at himpl
  · simp only [bind_eq_ok, pure_eq_ok] at himpl
    obtain ⟨_, _, _, _, _, _, _, _, rfl⟩ := himpl
    cases ht
  · split at himpl
    · rw [Except.ok.injEq] at himpl
      subst himpl
      cases ht
    · rw [Except.ok.injEq] at himpl
      subst himpl
      cases ht
    · simp only [bind_eq_ok, pure_eq_ok] at himpl
      obtain ⟨_, _, rfl⟩ := himpl
      obtain rfl := Option.some.inj ht
      intro i m n hp
      simp [Ty.parts, Ty.partsAll] at hp
  · cases himpl

section

variable {fields : List (String × Json)} {doc : Document} {declarations : List Json}
  {signed : List Declared} {items : List Json}
  (h : Stages fields doc declarations signed items) {id : SymId} {s : Symbol}
  (hs : doc.graph.find? id = some s) {ofType ofMethod : Nat}
include h hs

/-- The stored types of a symbol of an accepted document are within bounds for the types in its
declaration. -/
lemma Stages.types_within (hbound : ∀ t ∈ s.declaredTypes, t.Within ofType ofMethod) :
    ∀ t ∈ s.types, t.Within ofType ofMethod := by
  intro t ht
  rcases Symbol.mem_types ht with ht | ⟨impl, himpl, ht⟩
  · exact hbound t ht
  · rcases h.impl_cases hs impl himpl with rfl | ⟨_, _, hresolved⟩
    · cases ht
    · exact resolveImpl_unresolved hresolved ofType ofMethod t ht

/-- So are the types that show in its name. -/
lemma Stages.shownTypes_within
    (hbound : ∀ t ∈ doc.graph.relevantTypes s, t.Within ofType ofMethod) :
    ∀ t ∈ doc.graph.shownTypes s, t.Within ofType ofMethod := by
  intro t ht
  rcases List.mem_append.1 ht with hown | howner
  · refine h.types_within hs (fun u hu => ?_) t (s.shownTypes_subset hown)
    exact hbound u (List.mem_append_left _ (List.mem_append_right _ hu))
  · cases howner' : (s.method?.bind Method.property).bind doc.graph.find? with
    | none => simp [howner'] at howner
    | some owner =>
      obtain ⟨_, _, howner''⟩ := Option.bind_eq_some_iff.1 howner'
      rw [howner', Option.map_some, Option.getD_some] at howner
      refine h.types_within howner'' (fun u hu => ?_) t (owner.shownTypes_subset howner)
      exact hbound u (List.mem_append_right _ (by rwa [howner', Option.map_some, Option.getD_some]))

end

end Document

/-! ## Symbols under contexts that agree -/

namespace Scene

variable {scene : Scene} {ofType ofMethod : Nat} {ctx ctx' : Option Context}
  (hagree : (Context.effective ctx).AgreeBelow ofType ofMethod (Context.effective ctx'))
include hagree

/-- Contexts that agree instantiate an aggregate alike, if its parameters are within the bounds. -/
lemma thisInst?_of_agree (h : scene.graph.Nested) {id : SymId} {inst : Inst}
    (hthis : scene.graph.thisInst? id = some inst)
    (hbound : ∀ t ∈ scene.graph.typeVarsAll id, t.Within ofType ofMethod) :
    inst.subst ctx = inst.subst ctx' := by
  have hwithin : (Ty.aggregate inst).Within ofType ofMethod := by
    intro i m n hp
    exact hbound _ (h.mem_typeVarsAll_of_parts hthis hp) i m n (Ty.self_mem_parts _)
  have hsubst := Ty.subst_of_agree hwithin hagree
  rw [Ty.subst_aggregate, Ty.subst_aggregate] at hsubst
  exact Ty.aggregate.inj hsubst

/-- **Contexts that agree display a symbol alike**, if the types that show in its name and the type
parameters around it are within the bounds.

Aggregates are displayed as types, members behind their aggregates, and no context matters for any
other symbol.

**Proof sketch.** The parameters around a symbol and the types that show in its name are within the
bounds, and types within the bounds are replaced alike.  So what stands in front of a member is the
same instantiation, its own parts are the same types, and an aggregate is displayed as an
instantiation anyway. -/
theorem symbol_of_agree (h : scene.graph.Loaded) {id : SymId} {s : Symbol}
    (hs : scene.graph.find? id = some s)
    (hbound : ∀ t ∈ scene.graph.relevantTypes s, t.Within ofType ofMethod)
    (hshown : ∀ t ∈ scene.graph.shownTypes s, t.Within ofType ofMethod) (args : Bool) :
    scene.symbol id ctx args = scene.symbol id ctx' args := by
  have hvars (parent : SymId) (hparent : s.parent = some parent) :
      ∀ t ∈ scene.graph.typeVarsAll parent, t.Within ofType ofMethod := by
    intro t ht
    refine hbound t (List.mem_append_left _ (List.mem_append_left _ ?_))
    rwa [hparent, Option.map_some, Option.getD_some]
  by_cases hkind : s.kind ∈ [.field, .property, .method]
  · obtain ⟨parent, inst, hparent, hthis⟩ := h.thisInst?_of_member hs
      (fun heq => by simp [heq] at hkind) (fun heq => by simp [heq] at hkind)
    refine symbol_of_subst h hs hkind (fun bound hb => ?_)
      (fun t ht => Ty.subst_of_agree (hshown t ht) hagree) args
    rw [hparent, enclosing_eq_instUpTo h.toNested hb hthis,
      enclosing_eq_instUpTo h.toNested hb hthis,
      thisInst?_of_agree hagree h.toNested hthis (hvars parent hparent)]
  obtain ⟨n, hn, hlarge⟩ := scene.walkBound_eq_succ
  unfold symbol
  rw [hn]
  cases hd : s.detail with
  | aggregate a =>
    obtain ⟨parent, _, hparent, _⟩ := h.typeVars hs hd
    have hthis := h.thisInst?_eq hs hd hparent
    have hall : ∀ t ∈ scene.graph.typeVarsAll id, t.Within ofType ofMethod := by
      intro t ht
      rw [h.typeVarsAll_eq hs hd hparent] at ht
      rcases List.mem_append.1 ht with ht | ht
      · exact hvars parent hparent t ht
      · refine hbound t (List.mem_append_left _ (List.mem_append_right _ ?_))
        simpa only [Symbol.declaredTypes, hd] using ht
    rw [symbolUpTo_eq_instUpTo h.toNested (by omega) hthis,
      symbolUpTo_eq_instUpTo h.toNested (by omega) hthis,
      thisInst?_of_agree hagree h.toNested hthis hall]
  | method | property | field => simp [Symbol.kind, hd, Detail.kind] at hkind
  | _ => simp only [symbolUpTo_some hs, hd]

end Scene

namespace Document

/-- **Irrelevant entries never show.**  In an accepted document let bounds be given for the
positions of the type-owned and of the method-owned parameters in the types that a context can
matter for in the name of a symbol.  Contexts with the same entries, or none, below the bounds
display the symbol alike, with the same text or the same error, where an absent context counts as
one without entries.  In particular a context whose entries are all surplus is as good as none.

**Proof sketch.** The contexts have the same effect on the types that show, and on the aggregate
that stands in front of the members; so every step of the walk is the same. -/
theorem render_relevant {json : Json} {doc : Document} (hdoc : ofJson json = .ok doc)
    (display : Display) {r : Renderer} (hr : r.session.isOpen = false) {id : SymId} {s : Symbol}
    (hs : doc.graph.find? id = some s) {ofType ofMethod : Nat}
    (hbound : ∀ t ∈ doc.graph.relevantTypes s, t.Within ofType ofMethod) :
    (∀ ctx ctx' : Option Context,
      (Context.effective ctx).AgreeBelow ofType ofMethod (Context.effective ctx') →
      ∀ args, (r.render doc.graph display (.symbol (some id) ctx args)).1 =
        (r.render doc.graph display (.symbol (some id) ctx' args)).1) ∧
    ∀ ctx : Context, ofType = 0 ∨ ctx.ofType = [] → ofMethod = 0 ∨ ctx.ofMethod = [] →
      ∀ args, (r.render doc.graph display (.symbol (some id) (some ctx) args)).1 =
        (r.render doc.graph display (.symbol (some id) none args)).1 := by
  have hloaded := (loaded_of_ofJson hdoc).graph
  obtain ⟨fields, rfl, declarations, signed, items, hstages⟩ := stages_of_ofJson hdoc
  let scene : Scene := ⟨doc.graph, display.niceNames, r.memo.isBogus doc.graph⟩
  have hscene : scene.graph.Loaded := hloaded
  have hshown := hstages.shownTypes_within hs hbound
  have hrender (ctx ctx' : Option Context)
      (hagree : (Context.effective ctx).AgreeBelow ofType ofMethod (Context.effective ctx'))
      (args : Bool) : (r.render doc.graph display (.symbol (some id) ctx args)).1 =
        (r.render doc.graph display (.symbol (some id) ctx' args)).1 := by
    have hsymbol := Scene.symbol_of_agree hagree hscene hs hbound hshown args
    rw [Renderer.render_fst hr, Renderer.render_fst hr]
    exact congrArg (fun r : Rendering => r.finish display.catalog) hsymbol
  refine ⟨hrender, fun ctx htype hmethod => hrender (some ctx) none ⟨?_, ?_⟩⟩ <;> intro i hi
  · rcases htype with rfl | hempty
    · exact absurd hi (Nat.not_lt_zero i)
    · exact congrArg (·[i]?) hempty
  · rcases hmethod with rfl | hempty
    · exact absurd hi (Nat.not_lt_zero i)
    · exact congrArg (·[i]?) hempty

/-- The getter of an indexer over the parameter of its class: a second entry, and one for methods,
make no difference. -/
theorem render_relevant_accessor :
    let json : Json := .obj [("declarations", .arr [.obj [("kind", .str "class"),
      ("name", .str "C"), ("type_params", .arr [.str "T"]), ("members", .arr [
        .obj [("kind", .str "property"), ("name", .str "Item"), ("indexer", .bool true),
          ("getter", .bool true), ("params", .arr [.str "T"])]])]])]
    ∃ doc id s, ofJson json = .ok doc ∧ ({} : Renderer).session.isOpen = false ∧
      doc.graph.find? id = some s ∧ (∀ t ∈ doc.graph.relevantTypes s, t.Within 1 0) ∧
      (Context.effective (some ⟨[.void], []⟩)).AgreeBelow 1 0
        (Context.effective (some ⟨[.void, .null], [.null]⟩)) ∧
      (({} : Renderer).render doc.graph {} (.symbol (some id) (some ⟨[.void], []⟩) true)).1 =
        (({} : Renderer).render doc.graph {}
          (.symbol (some id) (some ⟨[.void, .null], [.null]⟩) true)).1 ∧
      (({} : Renderer).render doc.graph {} (.symbol (some id) (some ⟨[.void], []⟩) true)).1 =
        .ok "C<void>.this[void].get" := by
  intro json
  obtain ⟨doc, id, s, hdoc, hs, hrelevant, htext⟩ : ∃ doc id s, ofJson json = .ok doc ∧
      doc.graph.find? id = some s ∧ doc.graph.relevantTypes s =
        [.param (.number 0) false (some "T"), .param (.number 0) false (some "T")] ∧
      (({} : Renderer).render doc.graph {} (.symbol (some id) (some ⟨[.void], []⟩) true)).1 =
        .ok "C<void>.this[void].get" := by
    refine ⟨?doc, ((SymId.root.child (.member "C" 0)).child (.member "Item" 0)).child
      (.accessor .get), ?symbol, ?hdoc, ?hs, ?hrelevant, ?htext⟩
    case hdoc => cbv; rfl
    case hs => cbv; rfl
    case hrelevant => cbv
    case htext => decide +kernel
  have hbound : ∀ t ∈ doc.graph.relevantTypes s, t.Within 1 0 := by
    intro t ht i m n hp
    obtain rfl : t = .param (.number 0) false (some "T") := by simpa [hrelevant] using ht
    rw [Ty.parts_param, List.mem_singleton, Ty.param.injEq] at hp
    obtain ⟨rfl, rfl, rfl⟩ := hp
    decide
  have hagree : (Context.effective (some ⟨[.void], []⟩)).AgreeBelow 1 0
      (Context.effective (some ⟨[.void, .null], [.null]⟩)) := by
    refine ⟨fun i hi => ?_, fun i hi => absurd hi (Nat.not_lt_zero i)⟩
    obtain rfl : i = 0 := by omega
    rfl
  exact ⟨doc, id, s, hdoc, rfl, hs, hbound, hagree,
    (render_relevant hdoc {} rfl hs hbound).1 _ _ hagree true, htext⟩

end Document

end DisplayNames
