import DisplayNames.Proofs.ParameterOccurrences

/-!
# Parameters in signatures

The scope of a signature holds the parameters of the aggregates around it and, for a method, its
own.  So a parameter in a signature is one of these, or it comes along with one of the types of the
signature, provided that no type names a parameter by its position.

The surroundings of an aggregate do not depend on signatures, so what holds of a type when it is
resolved still holds when all signatures are filled in.

## Main definitions

* `DisplayNames.Document.Declared.writtenTypes` — what is written as the types of a signature.
* `DisplayNames.Document.Known` — the parameters that are in scope at a member.

## Main results

* `DisplayNames.Document.Holds.levels_eq` — the levels of aggregates do not depend on signatures.
* `DisplayNames.Document.Holds.scope_subset` — what is in scope at a place.
* `DisplayNames.Document.Stages.types_sourced` — where the parameters in the signature of a member
  come from.
-/

set_option relaxedAutoImplicit false
set_option autoImplicit false

namespace DisplayNames

namespace Document

/-! ## Levels with and without signatures -/

/-- The aggregates at the front of a chain do not depend on signatures. -/
lemma leadingAggregates_unsigned (chain : List (SymId × Symbol)) :
    Graph.leadingAggregates (chain.map fun e => (e.1, e.2.unsigned)) =
      Graph.leadingAggregates chain := by
  induction chain with
  | nil => rfl
  | cons e rest ih =>
    obtain ⟨id, s⟩ := e
    have haggregate : s.unsigned.aggregate? = s.aggregate? := by
      ext a
      rw [Symbol.aggregate?_eq_some, Symbol.aggregate?_eq_some, Symbol.unsigned_eq_aggregate]
    simp only [List.map_cons, Graph.leadingAggregates, haggregate, ih]

namespace Holds

variable {g : Graph} {all : List Declared} (h : Holds g all)
include h

/-- Apart from signatures the chains are those of the list. -/
lemma chainUpTo_unsigned (bound : Nat) (id : SymId) :
    (g.chainUpTo bound id).map (fun e => (e.1, e.2.unsigned)) =
      (declaredGraph all).chainUpTo bound id := by
  induction bound generalizing id with
  | zero => rfl
  | succ bound ih =>
    have hfind := h.find?_unsigned id
    unfold Graph.chainUpTo
    rw [← hfind]
    cases g.find? id with
    | none => rfl
    | some s =>
      simp only [Option.map_some, List.map_cons, Symbol.parent_unsigned]
      cases s.parent with
      | none => rfl
      | some parent => rw [ih parent]

/-- The levels of an aggregate are those of the list. -/
theorem levels_eq (id : SymId) : g.levels id = (declaredGraph all).levels id := by
  have hsize : g.size = (declaredGraph all).size := by
    rw [Graph.size, Graph.size, ← h.symbols_eq, List.length_map]
  rw [Graph.levels, Graph.levels, Graph.chain, Graph.chain, ← hsize, ← h.chainUpTo_unsigned,
    leadingAggregates_unsigned]

/-- What is sourced before the signatures are filled in is sourced afterwards. -/
lemma sourced {known : Ty → Prop} {t : Ty} (ht : t.Sourced (declaredGraph all) known) :
    t.Sourced g known := by
  intro i m n hp
  refine (ht i m n hp).imp_right ?_
  rintro ⟨inst, outer, hinst, ⟨houter, hthis⟩, hmem⟩
  refine ⟨inst, outer, hinst, ⟨by rw [h.outerAggregate?_eq, houter], ?_⟩, ?_⟩
  · rw [hthis, Graph.thisInst?, Graph.thisInst?, h.levels_eq]
  · rwa [Graph.typeVarsAll, h.levels_eq]

/-- The parameters in scope at a place are those of the aggregates around it.

**Proof sketch.** By induction on how the walk reaches the place.  Only an aggregate adds to the
scope, and what it adds is its own parameters, which are numbered behind those around it. -/
theorem scope_subset {place : Place} (hplaced : Placed all place) :
    (place.surroundings = .space → place.scope = []) ∧
      ∀ e ∈ place.scope, e.2 ∈ g.typeVarsAll place.id := by
  induction hplaced with
  | top => exact ⟨fun _ => rfl, by simp [Place.top]⟩
  | @inside place copy fields d inside hplaced hheads hd ih =>
    obtain ⟨s, hs, hu⟩ := h.find?_of_declared hd (List.mem_cons_self (a := (_, _)))
    cases hheads with
    | space _ _ hplace =>
      have hempty := ih.1 hplace
      exact ⟨fun _ => hempty, by simp [hempty]⟩
    | aggregate kind names broken =>
      have hparent : s.parent = some place.id := by rw [← Symbol.parent_unsigned, hu]
      have hdetail := Symbol.unsigned_eq_aggregate.1 (congrArg Symbol.detail hu)
      refine ⟨by simp, fun e he => ?_⟩
      rw [h.rooted.typeVarsAll_eq hs hdetail hparent, List.mem_append]
      rcases Scope.mem_enter he with hown | houter
      · exact .inr hown
      · exact .inl (ih.2 e houter)

end Holds

/-! ## Signatures -/

/-- A parameter of a method, or one of the aggregates around a place. -/
def Known (g : Graph) (place : SymId) (t : Ty) : Prop :=
  (∃ index name, t = .param index true name) ∨ t ∈ g.typeVarsAll place

/-- The parameters of a method are known everywhere. -/
lemma typeParams_sourced {g g' : Graph} {place : SymId} {names : List (Option String)} :
    ∀ t ∈ typeParams 0 true names, t.Sourced g (Known g' place) := by
  intro t ht
  obtain ⟨i, _, rfl⟩ := List.mem_mapIdx.1 ht
  exact .of_known (.inl ⟨_, _, rfl⟩)

section

variable {names : Names} (h : names.Sound) {known : Ty → Prop} {pending : Pending}
  (hscope : ∀ e ∈ pending.scope, e.2.Sourced names.graph known)
include h hscope

/-- Where the parameters in a list of types come from. -/
lemma resolveList_sourced {key : String}
    (hraw : ∀ value ∈ (Json.listField pending.fields key).toOption.getD [], ¬ UsesRawParam value)
    {ts : List Ty} (hts : resolveList names pending.scope pending.fields key = .ok ts) :
    ∀ t ∈ ts, t.Sourced names.graph known := by
  simp only [resolveList, bind_eq_ok] at hts
  obtain ⟨items, hitems, hts⟩ := hts
  rw [hitems] at hraw
  exact (resolve_sourced_parts h hscope).2 items hraw ts hts

/-- Where the parameters in the result of a method come from. -/
lemma resolveResult_sourced
    (hraw : ∀ value ∈ Table.get? pending.fields "returns", ¬ UsesRawParam value)
    {result : Option Ty} (hresult : resolveResult names pending = .ok result) :
    ∀ t ∈ result, t.Sourced names.graph known := by
  unfold resolveResult at hresult
  split at hresult
  · rw [Except.ok.injEq] at hresult
    simp [← hresult]
  · rename_i value hvalue
    obtain ⟨t, ht, rfl⟩ := map_eq_ok.1 hresult
    rintro _ ⟨rfl⟩
    exact resolve_sourced h hscope (hraw value hvalue) ht

/-- Where the parameters in an explicit implementation come from.

**Proof sketch.** A slot that is written as an object is a type that was resolved, without
positions.  All other slots have no types or an unresolved one with no arguments. -/
lemma resolveImpl_sourced
    (hraw : ∀ slot, Json.fieldD pending.fields "explicit_impl" .null = .obj slot →
      ¬ UsesRawParam (Json.fieldD slot "type" .null))
    {impl : ExplicitImpl} (himpl : resolveImpl names pending = .ok impl) :
    ∀ t ∈ impl.types, t.Sourced names.graph known := by
  unfold resolveImpl at himpl
  split at himpl
  · rename_i slot hslot
    simp only [bind_eq_ok, pure_eq_ok] at himpl
    obtain ⟨t, ht, on, hon, _, _, member, _, rfl⟩ := himpl
    have hsourced := resolve_sourced h hscope (hraw slot hslot) ht
    rw [asInst_eq_ok hon] at hsourced
    simpa [ExplicitImpl.types] using hsourced
  · split at himpl
    · rw [Except.ok.injEq] at himpl
      subst himpl
      simp [ExplicitImpl.types, ExplicitImpl.absent]
    · rw [Except.ok.injEq] at himpl
      subst himpl
      simp [ExplicitImpl.types]
    · simp only [bind_eq_ok, pure_eq_ok] at himpl
      obtain ⟨text, _, rfl⟩ := himpl
      -- what stands for a slot that did not resolve has no arguments
      have hstand : (Ty.error none (some names.graph.root) (some text) (some [])).Sourced
          names.graph known := .of_children (by simp) (by simp [Ty.children])
      simpa [ExplicitImpl.types] using hstand
  · cases himpl

end

/-- What a declaration writes as the types of its signature: the parameters, the result of a method,
and the interface in an explicit implementation. -/
def Declared.writtenTypes (d : Declared) : List Json :=
  match d.pending with
  | none => []
  | some pending =>
    (Json.listField pending.fields "params").toOption.getD []
      ++ (if d.symbol.kind = .method then (Table.get? pending.fields "returns").toList else [])
      ++ match Json.fieldD pending.fields "explicit_impl" .null with
        | .obj slot => [Json.fieldD slot "type" .null]
        | _ => []

/-- If no type of a signature is written by position, then none of its parameters is, nor its
result, nor the interface in its explicit implementation. -/
lemma Declared.not_usesRawParam {d : Declared} {pending : Pending}
    (hpending : d.pending = some pending)
    (hraw : ∀ value ∈ d.writtenTypes, ¬ UsesRawParam value) :
    (∀ value ∈ (Json.listField pending.fields "params").toOption.getD [], ¬ UsesRawParam value) ∧
      (d.symbol.kind = .method →
        ∀ value ∈ Table.get? pending.fields "returns", ¬ UsesRawParam value) ∧
        ∀ slot, Json.fieldD pending.fields "explicit_impl" .null = .obj slot →
          ¬ UsesRawParam (Json.fieldD slot "type" .null) := by
  simp only [writtenTypes, hpending, List.mem_append] at hraw
  refine ⟨fun value hv => hraw value (.inl (.inl hv)), fun hmethod value hv => ?_,
    fun slot hslot => ?_⟩
  · exact hraw value (.inl (.inr (by simpa [hmethod] using hv)))
  · exact hraw _ (.inr (by simp [hslot]))

/-- If all types of signatures are written as names, none of them is written by position. -/
lemma not_usesRawParam_of_names {json : Json} {names : List String}
    (hnames : (listed json).flatMap Declared.writtenTypes = names.map .str) :
    ∀ d ∈ listed json, ∀ value ∈ d.writtenTypes, ¬ UsesRawParam value := by
  intro d hd value hvalue huses
  have hmem := List.mem_flatMap.2 ⟨d, hd, hvalue⟩
  rw [hnames] at hmem
  obtain ⟨name, _, rfl⟩ := List.mem_map.1 hmem
  cases huses

section

variable {names : Names} {all : List Declared} {g : Graph} (hnames : names.Sound)
  (hgraph : names.graph = declaredGraph all) (hholds : Holds g all)
include hnames hgraph hholds

/-- Where the parameters in a signature that was filled in come from.

**Proof sketch.** A case for each form of a contribution.  The types of a signature were resolved
in the scope of the member: its own parameters, for a method, and those of the aggregates around
it.  No type of the signature is written by position, so no other parameter can occur. -/
lemma signed_types_sourced {d : Declared} {s : Symbol} {parent : SymId}
    (hlocated : Located all d) (hs : resolveSignature names d = .ok s)
    (hparent : s.parent = some parent) (hkind : s.kind ≠ .aggregate)
    (hraw : ∀ value ∈ d.writtenTypes, ¬ UsesRawParam value) :
    ∀ t ∈ s.types, t.Sourced g (Known g parent) := by
  have hsourced {t : Ty} (ht : t.Sourced names.graph (Known g parent)) :
      t.Sourced g (Known g parent) := hholds.sourced (hgraph ▸ ht)
  obtain ⟨place, copy, fields, inside, hplaced, hheads⟩ := hlocated
  have hplace : ∀ e ∈ place.scope, e.2.Sourced names.graph (Known g place.id) := by
    intro e he
    have hmem := (hholds.scope_subset hplaced).2 e he
    obtain ⟨i, m, n, hparam⟩ := hholds.nested.typeVarsAll_named place.id e.2 hmem
    rw [hparam] at hmem ⊢
    exact .of_known (.inr hmem)
  cases hheads with
  | space | field | event =>
    cases hs
    simp [Symbol.types]
  | aggregate =>
    cases hs
    exact absurd rfl hkind
  | method m paramNames _ _ _ hvars _ =>
    simp only [resolveSignature, bind_eq_ok, pure_eq_ok] at hs
    obtain ⟨params, hparams, returns, hreturns, impl, himpl, rfl⟩ := hs
    obtain rfl : place.id = parent := Option.some.inj hparent
    let pending : Pending := ⟨fields, place.scope.enter paramNames m.typeVars⟩
    have hscope : ∀ e ∈ pending.scope, e.2.Sourced names.graph (Known g place.id) := by
      intro e he
      rcases Scope.mem_enter he with hown | houter
      · exact typeParams_sourced e.2 (hvars ▸ hown)
      · exact hplace e houter
    obtain ⟨hrawParams, hrawResult, hrawImpl⟩ := Declared.not_usesRawParam rfl hraw
    intro t ht
    simp only [Symbol.types, List.mem_append, Option.mem_toList] at ht
    rcases ht with ((ht | ht) | ht) | ht
    · exact typeParams_sourced t (hvars ▸ ht)
    · exact hsourced (resolveList_sourced hnames hscope hrawParams hparams t ht)
    · exact hsourced (resolveResult_sourced hnames hscope (hrawResult rfl) hreturns t ht)
    · exact hsourced (resolveImpl_sourced hnames hscope hrawImpl himpl t ht)
  | property p =>
    simp only [resolveSignature, bind_eq_ok, pure_eq_ok] at hs
    obtain ⟨params, hparams, impl, himpl, rfl⟩ := hs
    obtain rfl : place.id = parent := Option.some.inj hparent
    obtain ⟨hrawParams, _, hrawImpl⟩ := Declared.not_usesRawParam rfl hraw
    have hscope : ∀ e ∈ (⟨fields, place.scope⟩ : Pending).scope, e.2.Sourced names.graph
        (Known g place.id) := hplace
    intro t ht
    rcases List.mem_append.1 ht with ht | ht
    · exact hsourced (resolveList_sourced hnames hscope hrawParams hparams t ht)
    · exact hsourced (resolveImpl_sourced hnames hscope hrawImpl himpl t ht)

end

/-- **Where the parameters in the signatures of an accepted document come from**, if no type in a
signature is written by position: a parameter in the signature of a member is one of the member's
own, one of the aggregates around the member, or comes along with a type of the signature.

**Proof sketch.** A symbol of the graph is declared, with a signature that was filled in, or
generated along with a declaration, without types. -/
theorem Stages.types_sourced {fields : List (String × Json)} {doc : Document}
    {declarations : List Json} {signed : List Declared} {items : List Json}
    (h : Stages fields doc declarations signed items)
    (hraw : ∀ d ∈ listed (.obj fields), ∀ value ∈ d.writtenTypes, ¬ UsesRawParam value)
    {id parent : SymId} {s : Symbol} (hs : doc.graph.find? id = some s)
    (hparent : s.parent = some parent) (hkind : s.kind ≠ .aggregate) :
    ∀ t ∈ s.types, t.Sourced doc.graph (Known doc.graph parent) := by
  rw [h.listed_eq] at hraw
  have hmem := h.holds.find?_eq_some.1 hs
  rw [h.graph_eq] at hmem
  rcases List.mem_cons.1 hmem with hroot | hmem
  · obtain ⟨_, rfl⟩ := Prod.mk.inj hroot
    cases hparent
  obtain ⟨d, hd, hcases⟩ := symbol_of_resolveSignatures h.signed_eq hmem
  have hlocated := h.holds.located d hd
  rcases hcases with ⟨_, hsigned⟩ | ⟨e, he, _, rfl⟩
  · exact signed_types_sourced h.sound_declared rfl h.holds hlocated hsigned hparent hkind
      (hraw d hd)
  · -- what is generated along with a declaration has no types
    obtain ⟨place, copy, fields, inside, _, hheads⟩ := hlocated
    cases hheads with
    | space | method | field => cases he
    | aggregate =>
      obtain ⟨_, _, rfl⟩ := List.mem_mapIdx.1 he
      simp [Symbol.types]
    | property | event =>
      obtain ⟨_, _, rfl⟩ := List.mem_map.1 he
      simp [Symbol.types, accessor, ExplicitImpl.types]

end Document

end DisplayNames
