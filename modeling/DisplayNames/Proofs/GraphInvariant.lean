import DisplayNames.Proofs.LoadedDocument

/-!
# The invariant of a loaded graph

What holds of every symbol of an accepted document, also of overloads that share their path with an
earlier one.  Going from parent to parent ends at the root.  Namespaces lie only in namespaces, and
members only in aggregates.  Type parameters are numbered by their position, those of aggregates
through all levels.  An accessor is known to its property or event and has the same parent.  Every
type that is stored anywhere is well-formed.

## Main definitions

* `DisplayNames.Graph.Ascends` — the symbols around a symbol end at the root.
* `DisplayNames.Symbol.types`, `DisplayNames.Subject.types` — the types that are stored in a symbol
  and in a request.
* `DisplayNames.Symbol.Invariant` — what holds of every symbol.

## Main results

* `DisplayNames.Document.graph_invariant` — the invariant for accepted documents.
-/

set_option relaxedAutoImplicit false
set_option autoImplicit false

namespace DisplayNames

/-! ## The stored types -/

/-- The types of an explicit implementation: the one a slot is seen on, and the stand-in. -/
def ExplicitImpl.types (impl : ExplicitImpl) : List Ty :=
  ((impl.slot.bind Slot.on).map Ty.aggregate).toList ++ impl.unresolved.toList

/-- The types that are stored in a symbol. -/
def Symbol.types (s : Symbol) : List Ty :=
  match s.detail with
  | .aggregate a => a.typeVars
  | .method m => m.typeVars ++ m.params ++ m.returns.toList ++ m.impl.types
  | .property p => p.params ++ p.impl.types
  | _ => []

/-- The types that are stored in a context. -/
def Context.types (ctx : Context) : List Ty := ctx.ofType ++ ctx.ofMethod

/-- The types that are stored in a request. -/
def Subject.types : Subject → List Ty
  | .symbol _ ctx _ => ctx.toList.flatMap Context.types
  | .type t ctx => t :: ctx.toList.flatMap Context.types

/-! ## The invariant -/

/-- Going from a symbol to its parent, to the parent of that, and so on ends at the root, which has
no parent. -/
inductive Graph.Ascends (g : Graph) : SymId → Prop
  | root {s : Symbol} : g.find? g.root = some s → s.parent = none → Ascends g g.root
  | up {id parent : SymId} {s : Symbol} : g.find? id = some s → s.parent = some parent →
    Ascends g parent → Ascends g id

/-- What holds of every symbol of a loaded graph. -/
structure Symbol.Invariant (g : Graph) (id : SymId) (s : Symbol) : Prop where
  ascends : g.Ascends id
  /-- Namespaces lie only in namespaces. -/
  space : s.kind = .space → ∀ parent ∈ s.parent, g.kind? parent = some .space
  /-- Methods, properties, fields and events lie directly in aggregates. -/
  member : s.kind ∈ [.method, .property, .field, .event] →
    ∃ parent, s.parent = some parent ∧ g.kind? parent = some .aggregate
  /-- The parameters of all levels of an aggregate are numbered through. -/
  typeVarsAll : s.kind = .aggregate → ∀ (i : Nat) (t : Ty), (g.typeVarsAll id)[i]? = some t →
    ∃ name, t = .param (.number i) false name
  /-- The parameters of a method are numbered by their position. -/
  typeVars {m : Method} : s.detail = .method m → ∀ (i : Nat) (t : Ty), m.typeVars[i]? = some t →
    ∃ name, t = .param (.number i) true name
  /-- A method with an owning property is one of its two accessors and has the same parent. -/
  property {m : Method} {owner : SymId} : s.detail = .method m → m.property = some owner →
    ∃ s' p, g.find? owner = some s' ∧ s'.detail = .property p ∧
      (p.getter = some id ∨ p.setter = some id) ∧ s.parent = s'.parent
  /-- A method with an owning event is one of its two accessors and has the same parent. -/
  event {m : Method} {owner : SymId} : s.detail = .method m → m.event = some owner →
    ∃ s' e, g.find? owner = some s' ∧ s'.detail = .event e ∧
      (e.adder = some id ∨ e.remover = some id) ∧ s.parent = s'.parent
  /-- Ranks, positions, enclosing instantiations and unresolved types are as they should be. -/
  types : ∀ t ∈ s.types, t.WellFormed g

variable {g : Graph}

/-! ## Parents -/

/-- In a rooted graph every symbol lies below the root. -/
lemma Graph.Rooted.ascends (h : g.Rooted) {id : SymId} {s : Symbol} (hs : g.find? id = some s) :
    g.Ascends id := by
  induction hn : id.steps.length using Nat.strongRecOn generalizing id s with
  | _ n ih =>
    by_cases hroot : id = .root
    · rw [hroot, ← h.root_eq]
      refine .root (s := ⟨none, none, .space⟩) ?_ rfl
      rw [h.root_eq, h.root_symbol]
    · obtain ⟨parent, around, hparent, haround, _, hlt⟩ := h.parent hs hroot
      exact .up hs hparent (ih parent.steps.length (hn ▸ hlt) haround rfl)

/-- The parent of a namespace is a namespace. -/
lemma Graph.Rooted.parent_of_space (h : g.Rooted) {id parent : SymId} {s : Symbol}
    (hs : g.find? id = some s) (hkind : s.kind = .space) (hparent : s.parent = some parent) :
    g.kind? parent = some .space := by
  obtain ⟨around, haround, henc, _⟩ := h.parent_of_eq hs hparent
  rw [Graph.kind?, haround, Option.map_some, Option.some.injEq]
  rcases SymbolKind.outer_of_encloses henc with hspace | haggregate
  · exact hspace
  · simp [haggregate, hkind, SymbolKind.encloses] at henc

/-- The parent of a symbol that is neither a namespace nor an aggregate is an aggregate. -/
lemma Graph.Rooted.parent_of_member (h : g.Rooted) {id : SymId} {s : Symbol}
    (hs : g.find? id = some s) (hspace : s.kind ≠ .space) (haggregate : s.kind ≠ .aggregate) :
    ∃ parent, s.parent = some parent ∧ g.kind? parent = some .aggregate := by
  have hroot : id ≠ .root := by
    rintro rfl
    rw [h.root_symbol, Option.some.injEq] at hs
    exact hspace (by rw [← hs]; rfl)
  obtain ⟨parent, around, hparent, haround, henc, _⟩ := h.parent hs hroot
  refine ⟨parent, hparent, ?_⟩
  rw [Graph.kind?, haround, Option.map_some, Option.some.injEq]
  rcases SymbolKind.outer_of_encloses henc with houter | houter
  · rw [houter, SymbolKind.space_encloses] at henc
    rcases henc with h | h
    · exact absurd h hspace
    · exact absurd h haggregate
  · exact houter

/-- It lies in an aggregate that is instantiated over its own parameters. -/
lemma Graph.Nested.thisInst?_of_member (h : g.Nested) {id : SymId} {s : Symbol}
    (hs : g.find? id = some s) (hspace : s.kind ≠ .space) (haggregate : s.kind ≠ .aggregate) :
    ∃ parent inst, s.parent = some parent ∧ g.thisInst? parent = some inst := by
  obtain ⟨parent, hparent, hkind⟩ := h.parent_of_member hs hspace haggregate
  obtain ⟨around, a, above, haround, ha, habove⟩ := h.aggregate_cases hkind
  exact ⟨parent, _, hparent, h.thisInst?_eq haround ha habove⟩

/-! ## Slots -/

/-- A slot that is stored has resolved. -/
def ExplicitImpl.Settled (impl : ExplicitImpl) : Prop :=
  ∀ slot ∈ impl.slot, ∃ member, impl.target? = some (member, slot.on)

/-- The types of a settled and well-formed explicit implementation are well-formed. -/
lemma ExplicitImpl.WellFormed.types {impl : ExplicitImpl} (h : impl.WellFormed g)
    (hsettled : impl.Settled) : ∀ t ∈ impl.types, t.WellFormed g := by
  intro t ht
  rw [ExplicitImpl.types, List.mem_append, Option.mem_toList, Option.mem_toList] at ht
  rcases ht with ht | ht
  · obtain ⟨inst, hinst, rfl⟩ := Option.map_eq_some_iff.1 ht
    obtain ⟨slot, hslot, hon⟩ := Option.bind_eq_some_iff.1 hinst
    obtain ⟨member, htarget⟩ := hsettled slot hslot
    exact .aggregate ((h.target htarget).2 inst hon)
  · exact h.unresolved t ht

/-- The explicit implementation of a method or property. -/
def Symbol.impl? (s : Symbol) : Option ExplicitImpl :=
  match s.detail with
  | .method m => some m.impl
  | .property p => some p.impl
  | _ => none

/-- Without a signature nothing is implemented explicitly. -/
lemma Symbol.impl_of_unsigned {s : Symbol} (h : s.unsigned = s) :
    ∀ impl ∈ s.impl?, impl = {} := by
  intro impl himpl
  rw [← h] at himpl
  obtain ⟨name, parent, detail⟩ := s
  cases detail <;> simp [impl?, Symbol.unsigned, Detail.unsigned] at himpl <;> exact himpl.symm

namespace Document

/-- What a document writes as an explicit implementation is settled. -/
lemma resolveImpl_settled {names : Names} {pending : Pending} {impl : ExplicitImpl}
    (himpl : resolveImpl names pending = .ok impl) : impl.Settled := by
  intro slot hslot
  unfold resolveImpl at himpl
  split at himpl
  · simp only [bind_eq_ok, pure_eq_ok] at himpl
    obtain ⟨_, _, on, _, _, _, member, _, rfl⟩ := himpl
    obtain rfl : (⟨some member, some on⟩ : Slot) = slot := Option.some.inj hslot
    exact ⟨member, rfl⟩
  · split at himpl
    · rw [Except.ok.injEq] at himpl
      subst himpl
      cases hslot
    · rw [Except.ok.injEq] at himpl
      subst himpl
      cases hslot
    · simp only [bind_eq_ok, pure_eq_ok] at himpl
      obtain ⟨_, _, rfl⟩ := himpl
      cases hslot
  · cases himpl

/-- The explicit implementation in a signature that is filled in is what the document writes. -/
lemma resolveSignature_impl {names : Names} {d : Declared} {s : Symbol}
    (hd : d.symbol.unsigned = d.symbol) (hs : resolveSignature names d = .ok s) :
    ∀ impl ∈ s.impl?, impl = {} ∨ ∃ pending, resolveImpl names pending = .ok impl := by
  unfold resolveSignature at hs
  split at hs
  · simp only [bind_eq_ok, pure_eq_ok] at hs
    obtain ⟨params, _, returns, _, impl, himpl, rfl⟩ := hs
    rintro _ ⟨rfl⟩
    exact .inr ⟨_, himpl⟩
  · simp only [bind_eq_ok, pure_eq_ok] at hs
    obtain ⟨params, _, impl, himpl, rfl⟩ := hs
    rintro _ ⟨rfl⟩
    exact .inr ⟨_, himpl⟩
  · rw [Except.ok.injEq] at hs
    exact fun impl himpl => .inl ((hs ▸ Symbol.impl_of_unsigned hd) impl himpl)

section

variable {fields : List (String × Json)} {doc : Document} {declarations : List Json}
  {signed : List Declared} {items : List Json}
  (h : Stages fields doc declarations signed items) {id : SymId} {s : Symbol}
  (hs : doc.graph.find? id = some s)
include h hs

/-- The explicit implementations in the graph are what the document writes. -/
lemma Stages.impl_cases :
    ∀ impl ∈ s.impl?, impl = {} ∨ ∃ names pending, resolveImpl names pending = .ok impl := by
  have hmem := h.holds.find?_eq_some.1 hs
  rw [h.graph_eq] at hmem
  rcases List.mem_cons.1 hmem with hroot | hmem
  · obtain ⟨_, rfl⟩ := Prod.mk.inj hroot
    exact fun impl himpl => .inl (Symbol.impl_of_unsigned rfl impl himpl)
  obtain ⟨d, hd, hcases⟩ := symbol_of_resolveSignatures h.signed_eq hmem
  obtain ⟨place, copy, fields, inside, _, hheads⟩ := h.holds.located d hd
  rcases hcases with ⟨_, hsigned⟩ | ⟨e, he, _, rfl⟩
  · have hunsigned : d.symbol.unsigned = d.symbol :=
      hheads.unsigned (d.id, d.symbol) List.mem_cons_self
    intro impl himpl
    exact (resolveSignature_impl hunsigned hsigned impl himpl).imp_right fun h => ⟨_, h⟩
  · have hlisted : (e.id, e.symbol) ∈ d.symbols :=
      List.mem_cons_of_mem _ (List.mem_map_of_mem (f := fun e => (e.id, e.symbol)) he)
    have hunsigned := hheads.unsigned (e.id, e.symbol) hlisted
    exact fun impl himpl => .inl (Symbol.impl_of_unsigned hunsigned impl himpl)

/-- The explicit implementations of an accepted document are settled. -/
lemma Stages.settled : ∀ impl ∈ s.impl?, impl.Settled := by
  intro impl himpl
  rcases h.impl_cases hs impl himpl with rfl | ⟨names, pending, hresolved⟩
  · intro slot hslot
    cases hslot
  · exact resolveImpl_settled hresolved

/-- The types that are stored in a symbol of an accepted document are well-formed.

**Proof sketch.** A case for each kind of symbol that has types.  Type parameters are well-formed
as such; parameters, results and slots were resolved, and what is resolved is well-formed. -/
lemma Stages.types_wellFormed : ∀ t ∈ s.types, t.WellFormed doc.graph := by
  have hsymbol := h.symbol hs
  have hsettled := h.settled hs
  intro t ht
  unfold Symbol.types at ht
  unfold Symbol.Loaded at hsymbol
  unfold Symbol.impl? at hsettled
  cases hd : s.detail with
  | aggregate a =>
    obtain ⟨_, names, _, hvars⟩ := h.holds.nested.typeVars hs hd
    have hmem : t ∈ a.typeVars := by simpa only [hd] using ht
    exact typeParams_wellFormed t (hvars ▸ hmem)
  | method m =>
    rw [hd] at ht hsymbol hsettled
    simp only [List.mem_append, Option.mem_toList] at ht
    rcases ht with ((ht | ht) | ht) | ht
    · obtain ⟨names, hvars⟩ := hsymbol.typeVars
      exact typeParams_wellFormed t (hvars ▸ ht)
    · exact hsymbol.params t ht
    · exact hsymbol.returns t ht
    · exact hsymbol.impl.types (hsettled m.impl rfl) t ht
  | property p =>
    rw [hd] at ht hsymbol hsettled
    rcases List.mem_append.1 ht with ht | ht
    · exact hsymbol.params t ht
    · exact hsymbol.impl.types (hsettled p.impl rfl) t ht
  | _ => simp [hd] at ht

/-- The invariant holds of every symbol of an accepted document.

**Proof sketch.** Each part was proved of loaded graphs, by what the declarations list; here they
are put together for one symbol. -/
lemma Stages.invariant : s.Invariant doc.graph id := by
  have hnested := h.holds.nested
  have hsymbol := h.symbol hs
  unfold Symbol.Loaded at hsymbol
  refine ⟨hnested.ascends hs, fun hkind parent hparent => hnested.parent_of_space hs hkind hparent,
    ?member, ?typeVarsAll, ?typeVars, ?property, ?event, h.types_wellFormed hs⟩
  case member =>
    intro hkind
    refine hnested.parent_of_member hs ?_ ?_ <;>
      · intro heq
        simp [heq] at hkind
  case typeVarsAll =>
    intro _ i t ht
    obtain ⟨names, hnames⟩ := hnested.typeVarsAll_eq_typeParams id
    rw [hnames] at ht
    obtain ⟨name, rfl⟩ := getElem?_typeParams ht
    exact ⟨some name, by rw [Nat.zero_add]⟩
  case typeVars =>
    intro m hm i t ht
    rw [hm] at hsymbol
    obtain ⟨names, hnames⟩ := hsymbol.typeVars
    rw [hnames] at ht
    obtain ⟨name, rfl⟩ := getElem?_typeParams ht
    exact ⟨some name, by rw [Nat.zero_add]⟩
  case property =>
    intro m owner hm howner
    rw [hm] at hsymbol
    obtain ⟨_, _, s', p, hs', hp, hparent, hknown⟩ := hsymbol.property howner
    exact ⟨s', p, hs', hp, hknown, hparent.symm⟩
  case event =>
    intro m owner hm howner
    rw [hm] at hsymbol
    obtain ⟨_, _, s', e, hs', he, hparent, hknown⟩ := hsymbol.event howner
    exact ⟨s', e, hs', he, hknown, hparent.symm⟩

end

/-- The types that are stored in a request for a loaded graph are well-formed. -/
lemma types_of_loaded {subject : Subject} (h : subject.Loaded g) :
    ∀ t ∈ subject.types, t.WellFormed g := by
  have hcontext {ctx : Option Context} (hctx : ∀ c ∈ ctx, c.WellFormed g) :
      ∀ t ∈ ctx.toList.flatMap Context.types, t.WellFormed g := by
    intro t ht
    obtain ⟨c, hc, ht⟩ := List.mem_flatMap.1 ht
    obtain ⟨htype, hmethod⟩ := hctx c (Option.mem_toList.1 hc)
    rcases List.mem_append.1 ht with ht | ht
    · exact htype t ht
    · exact hmethod t ht
  cases subject with
  | symbol id ctx args =>
    cases id with
    | none => exact h.elim
    | some id => exact hcontext h.2
  | type t ctx =>
    intro u hu
    rcases List.mem_cons.1 hu with rfl | hu
    · exact h.1
    · exact hcontext h.2 u hu

/-- **The invariant of loaded graphs.**  Everything that an accepted document declares is in its
graph under an identity of its own, every symbol of the graph satisfies the invariant, and all types
of requests are well-formed.

**Proof sketch.** The walk has found every declaration at a place that fits it, which gives parents
and positions before signatures are filled in.  A signature is filled in with what its types resolve
to, and these are well-formed. -/
theorem graph_invariant {json : Json} {doc : Document} (hdoc : ofJson json = .ok doc) :
    (((listed json).flatMap Declared.symbols).map Prod.fst).Nodup ∧
    (∀ d ∈ listed json, ∀ e ∈ d.symbols,
      ∃ s, doc.graph.find? e.1 = some s ∧ s.unsigned = e.2) ∧
    (∀ id s, doc.graph.find? id = some s → s.Invariant doc.graph id) ∧
    ∀ request ∈ doc.requests, ∀ t ∈ request.subject.types, t.WellFormed doc.graph := by
  obtain ⟨fields, rfl, declarations, signed, items, h⟩ := stages_of_ofJson hdoc
  rw [h.listed_eq]
  refine ⟨(List.nodup_cons.1 (nodup_ids_declareAll h.stop)).2, fun d hd e he => ?_,
    fun id s hs => h.invariant hs, fun request hrequest => ?_⟩
  · exact h.holds.find?_of_declared hd he
  · exact types_of_loaded (readRequests_loaded h.sound h.requests_eq request hrequest)

/-- An overload that shares its path with an earlier method is in the graph all the same, below the
generic class that declares both; and the types of a request for it, which are those of its context,
are well-formed. -/
theorem graph_invariant_overload :
    ∃ doc, ofJson (.obj
        [("declarations", .arr [.obj [("kind", .str "class"), ("name", .str "Set"),
          ("type_params", .arr [.str "T"]),
          ("members", .arr [.obj [("kind", .str "method"), ("name", .str "Add")],
            .obj [("kind", .str "method"), ("name", .str "Add"),
              ("params", .arr [.obj [("array", .str "T")]])],
            .obj [("kind", .str "event"), ("name", .str "Changed")]])]]),
        ("render", .arr [.obj [("type", .str "Set"),
          ("type_args", .arr [.obj [("error", .str "E"), ("args", .arr [.str "Set"])]])]])]) =
        .ok doc ∧
      (∀ id s, doc.graph.find? id = some s → s.Invariant doc.graph id) ∧
      doc.registry.get? "Set.Add" = some ((SymId.root.child (.member "Set" 0)).child
        (.member "Add" 0)) ∧
      (doc.graph.find? ((SymId.root.child (.member "Set" 0)).child (.member "Add" 1))).map
        Symbol.types = some [.array (.param (.number 0) false (some "T")) (.number 1) true] ∧
      (∀ request ∈ doc.requests, ∀ t ∈ request.subject.types, t.WellFormed doc.graph) ∧
      (doc.requests.map fun request => request.subject.types) =
        [[.aggregate (.mk (SymId.root.child (.member "Set" 0)) [] none),
          .error none (some .root) (some "E")
            (some [.aggregate (.mk (SymId.root.child (.member "Set" 0)) [] none)])]] := by
  refine ⟨?doc, ?hdoc, (graph_invariant ?hdoc).2.2.1, ?hkey, ?hoverload,
    (graph_invariant ?hdoc).2.2.2, ?hrequests⟩
  case hdoc => exact rfl
  case hkey => cbv
  case hoverload => cbv
  case hrequests => cbv

end Document

end DisplayNames
