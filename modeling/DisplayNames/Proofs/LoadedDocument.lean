import DisplayNames.Proofs.DeclaredGraph
import DisplayNames.Proofs.ResolvedTypes

/-!
# Loaded documents

What every accepted document has.  Its graph is nested, all types in signatures are well-formed, and
an accessor and its property or event know each other and have the same parent.  Every key is that
of a symbol, and every request asks for a symbol of the graph or for a well-formed type.

The facts about names, kinds and parents do not depend on signatures, so they hold before and after
the signatures are filled in, and well-formed types stay well-formed.

## Main definitions

* `DisplayNames.Method.Loaded`, `DisplayNames.Property.Loaded`, `DisplayNames.Symbol.Loaded` — what
  is loaded of a member and of a symbol.
* `DisplayNames.Graph.Loaded` — what is loaded of a graph.
* `DisplayNames.Subject.Loaded` — what a request can ask for.
* `DisplayNames.Document.Loaded` — what is loaded of a document.
* `DisplayNames.Document.Stages` — the stages that an accepted document has gone through.
* `DisplayNames.Document.listed` — what the walk over a document lists.

## Main results

* `DisplayNames.Document.ofJson_obj_eq_ok` — an object is accepted if it goes through all stages.
* `DisplayNames.Document.loaded_of_ofJson` — every accepted document is loaded in this sense.
-/

set_option relaxedAutoImplicit false
set_option autoImplicit false

namespace DisplayNames

/-- What is loaded of a method, which is the details of a symbol with an identity. -/
structure Method.Loaded (g : Graph) (id : SymId) (s : Symbol) (m : Method) : Prop where
  typeVars : ∃ names : List String, m.typeVars = typeParams 0 true (names.map some)
  params : ∀ t ∈ m.params, t.WellFormed g
  returns : ∀ t ∈ m.returns, t.WellFormed g
  impl : m.impl.WellFormed g
  /-- The property of an accessor knows it and has the same parent. -/
  property {owner : SymId} : m.property = some owner → m.impl = {} ∧ m.event = none ∧
    ∃ s' p, g.find? owner = some s' ∧ s'.detail = .property p ∧ s'.parent = s.parent ∧
      (p.getter = some id ∨ p.setter = some id)
  /-- The event of an accessor knows it and has the same parent. -/
  event {owner : SymId} : m.event = some owner → m.impl = {} ∧ m.property = none ∧
    ∃ s' e, g.find? owner = some s' ∧ s'.detail = .event e ∧ s'.parent = s.parent ∧
      (e.adder = some id ∨ e.remover = some id)

/-- What is loaded of a property. -/
structure Property.Loaded (g : Graph) (p : Property) : Prop where
  params : ∀ t ∈ p.params, t.WellFormed g
  impl : p.impl.WellFormed g

/-- What is loaded of a symbol. -/
def Symbol.Loaded (g : Graph) (id : SymId) (s : Symbol) : Prop :=
  match s.detail with
  | .method m => m.Loaded g id s
  | .property p => p.Loaded g
  | _ => True

/-- What is loaded of a graph. -/
structure Graph.Loaded (g : Graph) : Prop extends Graph.Nested g where
  method {id : SymId} {s : Symbol} {m : Method} : g.find? id = some s → s.detail = .method m →
    m.Loaded g id s
  property {id : SymId} {s : Symbol} {p : Property} : g.find? id = some s →
    s.detail = .property p → p.Loaded g

/-- What a request for a loaded graph can ask for. -/
def Subject.Loaded (g : Graph) : Subject → Prop
  | .symbol none _ _ => False
  | .symbol (some id) ctx _ => (∃ s, g.find? id = some s) ∧ ∀ c ∈ ctx, c.WellFormed g
  | .type t ctx => t.WellFormed g ∧ ∀ c ∈ ctx, c.WellFormed g

/-- What is loaded of a document. -/
structure Document.Loaded (doc : Document) : Prop where
  graph : doc.graph.Loaded
  known {key : String} {id : SymId} : doc.registry.get? key = some id →
    ∃ s, doc.graph.find? id = some s
  requests : ∀ request ∈ doc.requests, request.subject.Loaded doc.graph

namespace Document

/-! ## Keys -/

/-- All keys are those of symbols with a property. -/
def Registry.Within (registry : Registry) (P : SymId → Prop) : Prop :=
  ∀ key id, registry.get? key = some id → P id

section

variable {P : SymId → Prop} {registry : Registry}

/-- A path that is entered is the key of the given symbol, unless it is taken. -/
lemma Registry.Within.insertIfNew (h : registry.Within P) (path : String) {id : SymId}
    (hid : P id) : Registry.Within (Table.insertIfNew registry path id) P := by
  intro key id' hget
  rw [Table.get?_insertIfNew] at hget
  split at hget
  · rw [Option.some.injEq] at hget
    cases hold : registry.get? path with
    | none => rw [hold, Option.getD_none] at hget; exact hget ▸ hid
    | some old => rw [hold, Option.getD_some] at hget; exact hget ▸ h path old hold
  · exact h key id' hget

/-- An explicit id that is entered is the key of the given symbol. -/
lemma Registry.Within.enterId (h : registry.Within P) {key : String} {id : SymId} (hid : P id)
    {registry' : Registry} (hr : Registry.enterId registry key id = .ok registry') :
    registry'.Within P := by
  unfold Registry.enterId at hr
  split at hr
  · rw [Except.ok.injEq] at hr
    subst hr
    intro key' id' hget
    rw [Table.get?_insert] at hget
    split at hget
    · rw [Option.some.injEq] at hget
      exact hget ▸ hid
    · exact h key' id' hget
  · split at hr
    · rw [Except.ok.injEq] at hr
      exact hr ▸ h
    · simp at hr

/-- The keys of a declaration are those of its symbols.

**Proof sketch.** Keys are entered for the symbol itself, its explicit id and what is generated
along with it, all of which are listed with the declaration. -/
lemma Registry.Within.register (h : registry.Within P) {d : Declared}
    (hd : ∀ e ∈ d.symbols, P e.1) {registry' : Registry}
    (hr : register registry d = .ok registry') :
    registry'.Within P := by
  have hid : P d.id := hd (d.id, d.symbol) List.mem_cons_self
  have hgenerated : ∀ e ∈ d.generated, P e.id := fun e he =>
    hd (e.id, e.symbol)
      (List.mem_cons_of_mem _ (List.mem_map_of_mem (f := fun g => (g.id, g.symbol)) he))
  have hfold (generated : List Generated) (hgen : ∀ e ∈ generated, P e.id) (r : Registry)
      (hwithin : r.Within P) : Registry.Within
        (generated.foldl (fun registry g => registry.insertIfNew g.path g.id) r) P := by
    induction generated generalizing r with
    | nil => exact hwithin
    | cons e rest ih =>
      exact ih (fun x hx => hgen x (List.mem_cons_of_mem _ hx)) _
        (hwithin.insertIfNew e.path (hgen e List.mem_cons_self))
  have hpath := h.insertIfNew d.path hid
  unfold Document.register at hr
  cases hexplicit : d.explicitId with
  | none =>
    simp only [hexplicit, bind_eq_ok, pure_eq_ok, exists_eq_left'] at hr
    exact hr ▸ hfold d.generated hgenerated _ hpath
  | some key =>
    simp only [hexplicit, bind_eq_ok, pure_eq_ok] at hr
    obtain ⟨r, hr, rfl⟩ := hr
    exact hfold d.generated hgenerated _ (hpath.enterId hid hr)

/-- The keys of several declarations are those of their symbols. -/
lemma Registry.Within.registerAll (h : registry.Within P) {all : List Declared}
    (hall : ∀ e ∈ all.flatMap Declared.symbols, P e.1) {registry' : Registry}
    (hr : registerAll registry all = .ok registry') : registry'.Within P := by
  induction all generalizing registry with
  | nil =>
    rw [Document.registerAll, Except.ok.injEq] at hr
    exact hr ▸ h
  | cons d rest ih =>
    unfold Document.registerAll at hr
    split at hr
    · simp at hr
    · rename_i r hd
      have hhead : ∀ e ∈ d.symbols, P e.1 := fun e he =>
        hall e (List.mem_flatMap.2 ⟨d, List.mem_cons_self, he⟩)
      have hrest : ∀ e ∈ rest.flatMap Declared.symbols, P e.1 := fun e he =>
        hall e (by rw [List.flatMap_cons]; exact List.mem_append_right _ he)
      exact ih (h.register hhead hd) hrest hr

end

/-! ## Signatures -/

section

variable {names : Names} {d : Declared} {s : Symbol}

/-- A signature that is filled in changes nothing else. -/
lemma resolveSignature_unsigned (hs : resolveSignature names d = .ok s) :
    s.unsigned = d.symbol.unsigned := by
  unfold resolveSignature at hs
  split at hs
  · rename_i m hd
    simp only [bind_eq_ok, pure_eq_ok] at hs
    obtain ⟨params, _, returns, _, impl, _, rfl⟩ := hs
    simp [Symbol.unsigned, Detail.unsigned, hd]
  · rename_i p hd
    simp only [bind_eq_ok, pure_eq_ok] at hs
    obtain ⟨params, _, impl, _, rfl⟩ := hs
    simp [Symbol.unsigned, Detail.unsigned, hd]
  · rw [Except.ok.injEq] at hs
    rw [hs]

/-- The declarations with signatures are the declarations, apart from signatures. -/
lemma resolveSignatures_unsigned {all all' : List Declared}
    (hall : resolveSignatures names all = .ok all') :
    (all'.flatMap Declared.symbols).map (fun e => (e.1, e.2.unsigned)) =
      (all.flatMap Declared.symbols).map (fun e => (e.1, e.2.unsigned)) := by
  induction all generalizing all' with
  | nil =>
    rw [resolveSignatures, Except.ok.injEq] at hall
    rw [← hall]
  | cons d rest ih =>
    simp only [resolveSignatures, bind_eq_ok, pure_eq_ok] at hall
    obtain ⟨s, hs, rest', hrest, rfl⟩ := hall
    simp [Declared.symbols, ih hrest, resolveSignature_unsigned hs]

/-- A symbol of the declarations with signatures is a declared one with its signature filled in, or
one that was generated along with a declared one. -/
lemma symbol_of_resolveSignatures {all all' : List Declared}
    (hall : resolveSignatures names all = .ok all') {id : SymId}
    (hmem : (id, s) ∈ all'.flatMap Declared.symbols) :
    ∃ d ∈ all, (id = d.id ∧ resolveSignature names d = .ok s) ∨
      ∃ e ∈ d.generated, id = e.id ∧ s = e.symbol := by
  induction all generalizing all' with
  | nil =>
    rw [resolveSignatures, Except.ok.injEq] at hall
    simp [← hall] at hmem
  | cons d rest ih =>
    simp only [resolveSignatures, bind_eq_ok, pure_eq_ok] at hall
    obtain ⟨symbol, hsymbol, rest', hrest, rfl⟩ := hall
    rw [List.flatMap_cons, List.mem_append] at hmem
    rcases hmem with hmem | hmem
    · simp only [Declared.symbols, List.mem_cons, List.mem_map, Prod.mk.injEq] at hmem
      rcases hmem with ⟨rfl, rfl⟩ | ⟨e, he, rfl, rfl⟩
      · exact ⟨d, List.mem_cons_self, .inl ⟨rfl, hsymbol⟩⟩
      · exact ⟨d, List.mem_cons_self, .inr ⟨e, he, rfl, rfl⟩⟩
    · obtain ⟨d', hd', h⟩ := ih hrest hmem
      exact ⟨d', List.mem_cons_of_mem _ hd', h⟩

end

/-! ## Scopes -/

/-- What is in scope after parameters have entered is one of them or was in scope before. -/
lemma Scope.mem_enter {scope : Scope} {names : List String} {params : List Ty}
    {e : String × Ty} (he : e ∈ scope.enter names params) : e.2 ∈ params ∨ e ∈ scope := by
  unfold Scope.enter at he
  rw [List.mem_append, List.mem_reverse] at he
  exact he.imp_left fun hzip => (List.of_mem_zip hzip).2

/-- The parameters in scope at a place are well-formed. -/
lemma Placed.scope_wellFormed {g : Graph} {all : List Declared} {place : Place}
    (h : Placed all place) : ∀ e ∈ place.scope, e.2.WellFormed g := by
  induction h with
  | top => simp [Place.top]
  | inside _ hheads _ ih =>
    cases hheads with
    | space => exact ih
    | aggregate kind names broken =>
      intro e he
      rcases Scope.mem_enter he with hparam | hmem
      · exact typeParams_wellFormed _ hparam
      · exact ih e hmem

/-- The parameters in the scope of an open signature are well-formed. -/
lemma Heads.scope_wellFormed {g : Graph} {place : Place} {copy : Nat}
    {fields : List (String × Json)} {d : Declared} {inside : Option Place}
    (h : Heads place copy fields d inside) (hplace : ∀ e ∈ place.scope, e.2.WellFormed g) :
    ∀ pending ∈ d.pending, ∀ e ∈ pending.scope, e.2.WellFormed g := by
  cases h with
  | space | aggregate | field | event => simp
  | property =>
    rintro _ ⟨rfl⟩
    exact hplace
  | method m names _ _ _ hvars =>
    rintro _ ⟨rfl⟩ e he
    rcases Scope.mem_enter he with hparam | hmem
    · rw [hvars] at hparam
      exact typeParams_wellFormed _ hparam
    · exact hplace e hmem

/-! ## The stages of loading -/

/-- The graph of declarations whose signatures may be filled in holds what is declared. -/
lemma holds_of_unsigned {all all' : List Declared} (hlocated : ∀ d ∈ all, Located all d)
    (hnodup : (SymId.root :: (all.flatMap Declared.symbols).map Prod.fst).Nodup)
    (hall : (all'.flatMap Declared.symbols).map (fun e => (e.1, e.2.unsigned)) =
      (all.flatMap Declared.symbols).map (fun e => (e.1, e.2.unsigned))) :
    Holds (declaredGraph all') all where
  root_eq := rfl
  symbols_eq := by
    have hid : (all.flatMap Declared.symbols).map (fun e => (e.1, e.2.unsigned)) =
        all.flatMap Declared.symbols := by
      rw [List.map_congr_left (g := id), List.map_id]
      intro e he
      obtain ⟨d, hd, he⟩ := List.mem_flatMap.1 he
      obtain ⟨_, _, _, _, _, hheads⟩ := hlocated d hd
      rw [hheads.unsigned e he]
      rfl
    simp only [declaredGraph, List.map_cons, hall, hid]
    rfl
  nodup := by
    have hkeys := congrArg (List.map Prod.fst) hall
    rw [List.map_map, List.map_map] at hkeys
    change (SymId.root :: (all'.flatMap Declared.symbols).map Prod.fst).Nodup
    exact (congrArg (List.cons SymId.root) hkeys) ▸ hnodup
  located := hlocated

/-- An owner that has accessors with two roles knows each of its accessors. -/
lemma known_of_role {roles : List AccessorRole} {first second role : AccessorRole}
    (hroles : roles.Sublist [first, second]) (hrole : role ∈ roles) (owner : SymId) :
    (if roles.contains first then some (owner.child (.accessor first)) else none) =
        some (owner.child (.accessor role)) ∨
      (if roles.contains second then some (owner.child (.accessor second)) else none) =
        some (owner.child (.accessor role)) := by
  have hcases := hroles.subset hrole
  rw [List.mem_cons, List.mem_singleton] at hcases
  rcases hcases with rfl | rfl
  · exact .inl (if_pos (by simpa using hrole))
  · exact .inr (if_pos (by simpa using hrole))

section

variable {names : Names} {all all' : List Declared}
  (hnames : names.Sound) (hgraph : names.graph = declaredGraph all)
  (hholds : Holds (declaredGraph all') all) (hall : resolveSignatures names all = .ok all')
include hgraph hholds

/-- Well-formed types stay well-formed when the signatures are filled in. -/
lemma wellFormed_of_signed :
    (∀ t : Ty, t.WellFormed names.graph → t.WellFormed (declaredGraph all')) ∧
      ∀ inst : Inst, inst.WellFormed names.graph → inst.WellFormed (declaredGraph all') := by
  rw [hgraph]
  refine Ty.WellFormed.mono_parts (fun id kind hkind => ?_) fun id _ hnone => ?_
  · rw [hholds.kind?_eq, hkind]
  · rw [hholds.outerAggregate?_eq, hnone]

/-- Well-formed explicit implementations stay well-formed when the signatures are filled in. -/
lemma impl_wellFormed_of_signed {impl : ExplicitImpl} (h : impl.WellFormed names.graph) :
    impl.WellFormed (declaredGraph all') := by
  obtain ⟨htypes, hinsts⟩ := wellFormed_of_signed hgraph hholds
  refine ⟨fun {member on} htarget => ?_, fun t ht => htypes t (h.unresolved t ht)⟩
  obtain ⟨⟨u, hu⟩, hon⟩ := h.target htarget
  rw [hgraph, ← hholds.find?_unsigned, Option.map_eq_some_iff] at hu
  obtain ⟨s, hs, _⟩ := hu
  exact ⟨⟨s, hs⟩, fun inst hi => hinsts inst (hon inst hi)⟩

include hnames

/-- What is loaded of a symbol whose signature was filled in.

**Proof sketch.** A case for each form of a contribution.  Methods and properties have what was
resolved in their scope, which only holds well-formed types; other symbols have no signature. -/
lemma signed_loaded {d : Declared} {s : Symbol} (hlocated : Located all d)
    (hs : resolveSignature names d = .ok s) : s.Loaded (declaredGraph all') d.id := by
  obtain ⟨htypes, _⟩ := wellFormed_of_signed hgraph hholds
  obtain ⟨place, copy, fields, inside, hplaced, hheads⟩ := hlocated
  have hscope := hheads.scope_wellFormed (hplaced.scope_wellFormed (g := names.graph))
  cases hheads with
  | space | aggregate | field | event =>
    cases hs
    trivial
  | method m paramNames _ _ _ hvars hm =>
    simp only [resolveSignature, bind_eq_ok, pure_eq_ok] at hs
    obtain ⟨params, hparams, returns, hreturns, impl, himpl, rfl⟩ := hs
    have hpending := hscope _ rfl
    refine ⟨⟨paramNames, hvars⟩, ?_, ?_, ?_, ?_, ?_⟩
    · exact fun t ht => htypes t (resolveList_wellFormed hnames hpending hparams t ht)
    · exact fun t ht => htypes t (resolveResult_wellFormed hnames hpending hreturns t ht)
    · exact impl_wellFormed_of_signed hgraph hholds (resolveImpl_wellFormed hnames hpending himpl)
    · intro owner howner
      rw [hm] at howner
      cases howner
    · intro owner howner
      rw [hm] at howner
      cases howner
  | property =>
    simp only [resolveSignature, bind_eq_ok, pure_eq_ok] at hs
    obtain ⟨params, hparams, impl, himpl, rfl⟩ := hs
    have hpending := hscope _ rfl
    refine ⟨fun t ht => htypes t (resolveList_wellFormed hnames hpending hparams t ht), ?_⟩
    exact impl_wellFormed_of_signed hgraph hholds (resolveImpl_wellFormed hnames hpending himpl)

omit hnames hgraph in
/-- What is loaded of a symbol that was generated along with a declared one.

**Proof sketch.** A case for each form of a contribution.  Accessors are generated for the roles
that the declaration has, and the declaration knows them by the same ids; type parameters need
nothing. -/
lemma generated_loaded {d : Declared} (hd : d ∈ all) {e : Generated} (he : e ∈ d.generated) :
    e.symbol.Loaded (declaredGraph all') e.id := by
  obtain ⟨place, copy, fields, inside, _, hheads⟩ := hholds.located d hd
  obtain ⟨owner, howner, hu⟩ := hholds.find?_of_declared hd (List.mem_cons_self (a := (_, _)))
  have hparent : owner.parent = d.symbol.parent := by rw [← Symbol.parent_unsigned, hu]
  cases hheads with
  | space | method | field => cases he
  | aggregate =>
    obtain ⟨_, _, rfl⟩ := List.mem_mapIdx.1 he
    trivial
  | property p roles _ _ _ hroles _ _ hgetter hsetter =>
    obtain ⟨role, hrole, rfl⟩ := List.mem_map.1 he
    refine ⟨⟨[], rfl⟩, by simp, by simp, .absent _, ?_, by simp⟩
    rintro _ ⟨rfl⟩
    obtain ⟨p', hp', hgetter', hsetter'⟩ :=
      Symbol.unsigned_eq_property (congrArg Symbol.detail hu)
    refine ⟨rfl, rfl, owner, p', howner, hp', hparent, ?_⟩
    rw [hgetter', hsetter', hgetter, hsetter]
    exact known_of_role hroles hrole _
  | event e roles _ _ _ hroles hadder hremover =>
    obtain ⟨role, hrole, rfl⟩ := List.mem_map.1 he
    refine ⟨⟨[], rfl⟩, by simp, by simp, .absent _, by simp, ?_⟩
    rintro _ ⟨rfl⟩
    have hdetail := Symbol.unsigned_eq_event.1 (congrArg Symbol.detail hu)
    refine ⟨rfl, rfl, owner, e, howner, hdetail, hparent, ?_⟩
    rw [hadder, hremover]
    exact known_of_role hroles hrole _

include hall

/-- What is loaded of the symbols of a document. -/
lemma symbol_loaded {id : SymId} {s : Symbol} (hs : (declaredGraph all').find? id = some s) :
    s.Loaded (declaredGraph all') id := by
  rcases List.mem_cons.1 (hholds.find?_eq_some.1 hs) with hroot | hmem
  · obtain ⟨_, rfl⟩ := Prod.mk.inj hroot
    trivial
  obtain ⟨d, hd, ⟨rfl, hsigned⟩ | ⟨e, he, rfl, rfl⟩⟩ := symbol_of_resolveSignatures hall hmem
  · exact signed_loaded hnames hgraph hholds (hholds.located d hd) hsigned
  · exact generated_loaded hholds hd he

end

/-- A request asks for a symbol of the graph or for a well-formed type. -/
lemma readRequest_loaded {names : Names} (h : names.Sound) {fields : List (String × Json)}
    {request : Request} (hr : readRequest names fields = .ok request) :
    request.subject.Loaded names.graph := by
  simp only [readRequest, bind_eq_ok] at hr
  obtain ⟨ctx, hctx, hr⟩ := hr
  have hctx := readContext_wellFormed h hctx
  split at hr
  · simp only [bind_eq_ok, pure_eq_ok] at hr
    obtain ⟨path, _, id, hid, rfl⟩ := hr
    exact ⟨h.lookup hid, hctx⟩
  · split at hr
    · exact absurd hr throw_ne_ok
    · simp only [bind_eq_ok, pure_eq_ok] at hr
      obtain ⟨t, ht, rfl⟩ := hr
      exact ⟨resolve_wellFormed h (by simp) ht, hctx⟩

/-- All requests of a document ask for symbols of the graph or for well-formed types. -/
lemma readRequests_loaded {names : Names} (h : names.Sound) {position : Nat} {items : List Json}
    {requests : List Request} (hr : readRequests names position items = .ok requests) :
    ∀ request ∈ requests, request.subject.Loaded names.graph := by
  induction items generalizing position requests with
  | nil =>
    rw [readRequests, Except.ok.injEq] at hr
    simp [← hr]
  | cons item rest ih =>
    cases item with
    | obj fields =>
      simp only [readRequests, bind_eq_ok, pure_eq_ok] at hr
      obtain ⟨request, hrequest, requests, hrequests, rfl⟩ := hr
      simpa using ⟨readRequest_loaded h hrequest, ih hrequests⟩
    | _ => simp [readRequests] at hr

/-! ## Accepted documents -/

/-- A list that was put under a key is found there. -/
lemma listField_insert (fields : List (String × Json)) (key : String) (items : List Json) :
    Json.listField (Table.insert fields key (.arr items)) key = .ok items := by
  rw [Json.listField, Table.get?_insert, if_pos rfl]
  rfl

/-- A list under another key is found as before. -/
lemma listField_insert_of_ne {key other : String} (h : key ≠ other)
    (fields : List (String × Json)) (value : Json) :
    Json.listField (Table.insert fields key value) other = Json.listField fields other := by
  rw [Json.listField, Json.listField, Table.get?_insert, if_neg h]

/-- The stages of loading a document with those fields: the walk over its declarations goes through,
their keys are entered, their signatures are filled in, and its requests are read. -/
structure Stages (fields : List (String × Json)) (doc : Document) (declarations : List Json)
    (signed : List Declared) (items : List Json) : Prop where
  declarations_eq : Json.listField fields "declarations" = .ok declarations
  stop : (declareAll .top [] declarations).stop = none
  registry_eq : registerAll [] (declareAll .top [] declarations).declared = .ok doc.registry
  signed_eq : resolveSignatures
      ⟨declaredGraph (declareAll .top [] declarations).declared, doc.registry⟩
      (declareAll .top [] declarations).declared = .ok signed
  graph_eq : doc.graph = declaredGraph signed
  items_eq : Json.listField fields "render" = .ok items
  requests_eq : readRequests ⟨doc.graph, doc.registry⟩ 0 items = .ok doc.requests

/-- An object is accepted exactly if it goes through all stages.

**Proof sketch.** The stages are the steps of the reader, in order.  The walk over the declarations
records where it stops, and a document is rejected there after its keys were entered. -/
theorem ofJson_obj_eq_ok {fields : List (String × Json)} {doc : Document} :
    ofJson (.obj fields) = .ok doc ↔
      ∃ declarations signed items, Stages fields doc declarations signed items := by
  constructor
  · intro h
    simp only [ofJson, readDeclarations, bind_eq_ok, pure_eq_ok, Prod.exists] at h
    obtain ⟨declarations, hdeclarations, all, registry, ⟨registry', hregistry, hread⟩, signed,
      hsigned, items, hitems, requests, hrequests, rfl⟩ := h
    split at hread
    · exact absurd hread throw_ne_ok
    · rename_i hstop
      rw [pure_eq_ok, Prod.mk.injEq] at hread
      obtain ⟨rfl, rfl⟩ := hread
      exact ⟨declarations, signed, items, hdeclarations, hstop, hregistry, hsigned, rfl, hitems,
        hrequests⟩
  · rintro ⟨declarations, signed, items, h⟩
    obtain ⟨graph, registry, requests⟩ := doc
    obtain rfl : graph = declaredGraph signed := h.graph_eq
    have hread : readDeclarations declarations =
        .ok ((declareAll .top [] declarations).declared, registry) := by
      simp only [readDeclarations, bind_eq_ok]
      refine ⟨registry, h.registry_eq, ?_⟩
      rw [h.stop]
      rfl
    simp only [ofJson, bind_eq_ok, pure_eq_ok, Prod.exists]
    exact ⟨declarations, h.declarations_eq, _, registry, hread, signed, h.signed_eq, items,
      h.items_eq, requests, h.requests_eq, rfl⟩

/-- What the walk over the declarations of a document lists. -/
def listed : Json → List Declared
  | .obj fields =>
    match Json.listField fields "declarations" with
    | .ok declarations => (declareAll .top [] declarations).declared
    | .error _ => []
  | _ => []

/-- Only objects are accepted. -/
lemma stages_of_ofJson {json : Json} {doc : Document} (h : ofJson json = .ok doc) :
    ∃ fields, json = .obj fields ∧
      ∃ declarations signed items, Stages fields doc declarations signed items := by
  cases json with
  | obj fields => exact ⟨fields, rfl, ofJson_obj_eq_ok.1 h⟩
  | _ => simp [ofJson] at h

namespace Stages

variable {fields : List (String × Json)} {doc : Document} {declarations : List Json}
  {signed : List Declared} {items : List Json}
  (h : Stages fields doc declarations signed items)
include h

/-- The walk of the first stage is that over the document. -/
lemma listed_eq : listed (.obj fields) = (declareAll .top [] declarations).declared := by
  simp only [listed, h.declarations_eq]

/-- The graph before the signatures are filled in holds what is declared. -/
lemma holds_declared :
    Holds (declaredGraph (declareAll .top [] declarations).declared)
      (declareAll .top [] declarations).declared :=
  holds_of_unsigned (fun _ hd => located_of_mem h.stop hd) (nodup_ids_declareAll h.stop) rfl

/-- The graph of the document holds what is declared. -/
lemma holds : Holds doc.graph (declareAll .top [] declarations).declared := by
  rw [h.graph_eq]
  exact holds_of_unsigned (fun _ hd => located_of_mem h.stop hd) (nodup_ids_declareAll h.stop)
    (resolveSignatures_unsigned h.signed_eq)

/-- The keys of a document are those of its symbols, in every graph that holds what is declared. -/
lemma known {g : Graph} (hg : Holds g (declareAll .top [] declarations).declared) {key : String}
    {id : SymId} (hget : doc.registry.get? key = some id) : ∃ s, g.find? id = some s := by
  have hwithin := Registry.Within.registerAll
    (P := fun id => ∃ u, (id, u) ∈ (declareAll .top [] declarations).declared.flatMap
      Declared.symbols)
    (by simp [Registry.Within]) (fun e he => ⟨e.2, he⟩) h.registry_eq
  obtain ⟨u, hu⟩ := hwithin key id hget
  obtain ⟨s, hs, _⟩ := hg.find?_of_mem (List.mem_cons_of_mem _ hu)
  exact ⟨s, hs⟩

/-- Names are resolved soundly while the signatures are filled in. -/
lemma sound_declared : Names.Sound
    ⟨declaredGraph (declareAll .top [] declarations).declared, doc.registry⟩ :=
  ⟨h.holds_declared.nested, h.known h.holds_declared⟩

/-- Names are resolved soundly when the requests are read. -/
lemma sound : Names.Sound ⟨doc.graph, doc.registry⟩ :=
  ⟨h.holds.nested, h.known h.holds⟩

/-- What is loaded of the symbols of the document. -/
lemma symbol {id : SymId} {s : Symbol} (hs : doc.graph.find? id = some s) :
    s.Loaded doc.graph id := by
  have hholds := h.holds
  rw [h.graph_eq] at hs hholds ⊢
  exact symbol_loaded h.sound_declared rfl hholds h.signed_eq hs

end Stages

/-- **Every accepted document is loaded**: its graph is nested and well-formed, accessors and their
owners know each other, and keys and requests are about symbols of the graph.

**Proof sketch.** The listed declarations have distinct identities and stand at places that the walk
has reached, so their graph is nested before and after the signatures are filled in.  Names are
resolved against the graph without signatures, in which kinds and parents are the final ones. -/
theorem loaded_of_ofJson {json : Json} {doc : Document} (h : ofJson json = .ok doc) :
    doc.Loaded := by
  obtain ⟨fields, rfl, declarations, signed, items, h⟩ := stages_of_ofJson h
  refine ⟨⟨h.holds.nested, ?_, ?_⟩, h.sound.known, readRequests_loaded h.sound h.requests_eq⟩
  · intro id s m hs hm
    have hloaded := h.symbol hs
    rwa [Symbol.Loaded, hm] at hloaded
  · intro id s p hs hp
    have hloaded := h.symbol hs
    rwa [Symbol.Loaded, hp] at hloaded

end Document

end DisplayNames
