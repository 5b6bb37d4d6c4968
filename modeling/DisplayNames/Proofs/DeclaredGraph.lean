import DisplayNames.Proofs.Declarations
import DisplayNames.Proofs.NestedGraph
import Mathlib.Data.List.Perm.Subperm

/-!
# The graph of a list of declarations

A graph holds what a walk has listed: every symbol of the graph but the root is one of the listed
ones, apart from its signature, which may be filled in already.  Such a graph is nested, because
every declaration stands at a place that the walk has reached.

## Main definitions

* `DisplayNames.Symbol.unsigned` — a symbol without its signature.
* `DisplayNames.Document.Holds` — the graph holds what is listed.

## Main results

* `DisplayNames.Document.Holds.symbol_cases` — where a symbol of the graph comes from.
* `DisplayNames.Document.Holds.nested` — the graph is nested.
-/

set_option relaxedAutoImplicit false
set_option autoImplicit false

namespace DisplayNames

/-! ## Signatures -/

/-- The details without what is resolved later. -/
def Detail.unsigned : Detail → Detail
  | .method m => .method { m with params := [], returns := none, impl := {} }
  | .property p => .property { p with params := [], impl := {} }
  | detail => detail

/-- The symbol without its signature. -/
def Symbol.unsigned (s : Symbol) : Symbol := { s with detail := s.detail.unsigned }

/-- A symbol keeps its kind without its signature. -/
@[simp] lemma Symbol.kind_unsigned (s : Symbol) : s.unsigned.kind = s.kind := by
  obtain ⟨name, parent, detail⟩ := s
  cases detail <;> rfl

@[simp] lemma Symbol.parent_unsigned (s : Symbol) : s.unsigned.parent = s.parent := rfl

/-- Aggregates have no signature. -/
lemma Symbol.unsigned_eq_aggregate {s : Symbol} {a : Aggregate} :
    s.unsigned.detail = .aggregate a ↔ s.detail = .aggregate a := by
  obtain ⟨name, parent, detail⟩ := s
  cases detail <;> simp [Symbol.unsigned, Detail.unsigned]

/-- Events have no signature. -/
lemma Symbol.unsigned_eq_event {s : Symbol} {e : Event} :
    s.unsigned.detail = .event e ↔ s.detail = .event e := by
  obtain ⟨name, parent, detail⟩ := s
  cases detail <;> simp [Symbol.unsigned, Detail.unsigned]

/-- A property keeps its accessors without its signature. -/
lemma Symbol.unsigned_eq_property {s : Symbol} {p : Property}
    (h : s.unsigned.detail = .property p) :
    ∃ p', s.detail = .property p' ∧ p'.getter = p.getter ∧ p'.setter = p.setter := by
  obtain ⟨name, parent, detail⟩ := s
  cases detail <;> simp [Symbol.unsigned, Detail.unsigned] at h ⊢
  simp [← h]

namespace Document

/-! ## The symbols of a contribution -/

/-- The kind of the symbol at a place. -/
def Surroundings.kind : Surroundings → SymbolKind
  | .space => .space
  | .aggregate _ => .aggregate

/-- Members other than namespaces and aggregates stand in aggregates. -/
lemma Surroundings.kind_of_ne {surroundings : Surroundings} (h : surroundings ≠ .space) :
    surroundings.kind = .aggregate := by
  cases surroundings with
  | space => exact absurd rfl h
  | aggregate params => rfl

section

variable {place : Place} {copy : Nat} {fields : List (String × Json)} {d : Declared}
  {inside : Option Place}

/-- What a contribution lists has no signatures yet.

**Proof sketch.** A case for each form of a contribution: the types of signatures are filled in
later, and what is generated along has none. -/
lemma Heads.unsigned (h : Heads place copy fields d inside) :
    ∀ e ∈ d.symbols, e.2.unsigned = e.2 := by
  intro e he
  simp only [Declared.symbols, List.mem_cons, List.mem_map] at he
  cases h with
  | space | field =>
    rcases he with rfl | ⟨_, hmem, _⟩
    · rfl
    · cases hmem
  | method m _ _ _ _ _ hm =>
    rcases he with rfl | ⟨_, hmem, _⟩
    · rw [hm]
      rfl
    · cases hmem
  | aggregate kind names broken =>
    rcases he with rfl | ⟨_, hmem, rfl⟩
    · rfl
    · obtain ⟨_, _, rfl⟩ := List.mem_mapIdx.1 hmem
      rfl
  | property p roles _ _ _ _ hparams himpl =>
    rcases he with rfl | ⟨_, hmem, rfl⟩
    · simp [Symbol.unsigned, Detail.unsigned, ← hparams, ← himpl]
    · obtain ⟨_, _, rfl⟩ := List.mem_map.1 hmem
      rfl
  | event e roles =>
    rcases he with rfl | ⟨_, hmem, rfl⟩
    · rfl
    · obtain ⟨_, _, rfl⟩ := List.mem_map.1 hmem
      rfl

/-- A listed symbol has the symbol at its place as a parent, or is a type parameter and has the
declared aggregate as a parent.

**Proof sketch.** A case for each form of a contribution.  Type parameters are generated inside the
declared aggregate, accessors beside the declared member; in both cases the id is one step longer
than that of the parent. -/
lemma Heads.parent_of_mem (h : Heads place copy fields d inside) {id : SymId} {s : Symbol}
    (hs : (id, s) ∈ d.symbols) :
    (s.parent = some place.id ∧ place.surroundings.kind.encloses s.kind = true ∧
        place.id.steps.length < id.steps.length) ∨
      (s.parent = some d.id ∧ d.symbol.kind.encloses s.kind = true ∧
        d.id.steps.length < id.steps.length) := by
  simp only [Declared.symbols, List.mem_cons, List.mem_map, Prod.mk.injEq] at hs
  have haccessor {roles : List AccessorRole} {name : String} {details : Method} {g : Generated}
      (hplace : place.surroundings ≠ .space)
      (hmem : g ∈ roles.map fun role => accessor role place (place.member name copy)
        (joinPath place.path name) name details) :
      g.symbol.parent = some place.id ∧ place.surroundings.kind.encloses g.symbol.kind = true ∧
        place.id.steps.length < g.id.steps.length := by
    obtain ⟨role, _, rfl⟩ := List.mem_map.1 hmem
    rw [Surroundings.kind_of_ne hplace]
    exact ⟨rfl, rfl, by
      simp only [accessor, Place.member, SymId.child, List.length_cons]
      omega⟩
  cases h with
  | space _ _ hplace =>
    rcases hs with ⟨rfl, rfl⟩ | ⟨_, hmem, _⟩
    · exact .inl ⟨rfl, by rw [hplace]; rfl, Nat.lt_succ_self _⟩
    · cases hmem
  | field _ _ hplace | method _ _ _ _ hplace =>
    rcases hs with ⟨rfl, rfl⟩ | ⟨_, hmem, _⟩
    · exact .inl ⟨rfl, by rw [Surroundings.kind_of_ne hplace]; rfl, Nat.lt_succ_self _⟩
    · cases hmem
  | aggregate kind names broken =>
    rcases hs with ⟨rfl, rfl⟩ | ⟨_, hmem, rfl, rfl⟩
    · exact .inl ⟨rfl, by cases place.surroundings <;> rfl, Nat.lt_succ_self _⟩
    · obtain ⟨_, _, rfl⟩ := List.mem_mapIdx.1 hmem
      exact .inr ⟨rfl, rfl, Nat.lt_succ_self _⟩
  | property _ _ _ _ hplace | event _ _ _ _ hplace =>
    rcases hs with ⟨rfl, rfl⟩ | ⟨_, hmem, rfl, rfl⟩
    · exact .inl ⟨rfl, by rw [Surroundings.kind_of_ne hplace]; rfl, Nat.lt_succ_self _⟩
    · exact .inl (haccessor hplace hmem)

/-- A listed symbol lies one step below the place or below the contribution. -/
lemma Heads.above_of_mem (h : Heads place copy fields d inside) {id : SymId} {s : Symbol}
    (hs : (id, s) ∈ d.symbols) : ∃ step, id = place.id.child step ∨ id = d.id.child step := by
  obtain ⟨steps, hsteps, _⟩ := h.generated_ids
  simp only [Declared.symbols, List.mem_cons, List.mem_map, Prod.mk.injEq] at hs
  rcases hs with ⟨rfl, _⟩ | ⟨e, hmem, rfl, _⟩
  · exact ⟨_, .inl h.id_eq⟩
  · have hid : e.id ∈ steps.map d.id.child := hsteps ▸ List.mem_map_of_mem hmem
    obtain ⟨step, _, hstep⟩ := List.mem_map.1 hid
    exact ⟨step, .inr hstep.symm⟩

/-- The place that a contribution opens is of the kind of its symbol. -/
lemma Heads.inside_kind {inside : Place} (h : Heads place copy fields d (some inside)) :
    d.symbol.kind = inside.surroundings.kind := by
  cases h with
  | space _ _ hplace => rw [hplace]; rfl
  | aggregate kind names broken => rfl

end

/-! ## The graph -/

/-- The graph holds what is listed, apart from signatures, and all of it was found at places that
a walk reaches. -/
structure Holds (g : Graph) (all : List Declared) : Prop where
  root_eq : g.root = .root
  symbols_eq : g.symbols.map (fun e => (e.1, e.2.unsigned)) = (declaredGraph all).symbols
  nodup : (g.symbols.map Prod.fst).Nodup
  located : ∀ d ∈ all, Located all d

namespace Holds

variable {g : Graph} {all : List Declared} (h : Holds g all)
include h

/-- A symbol is found exactly if it is one of the entries. -/
lemma find?_eq_some {id : SymId} {s : Symbol} : g.find? id = some s ↔ (id, s) ∈ g.symbols :=
  Table.get?_eq_some_iff h.nodup

/-- A symbol of the graph is the root or listed by a contribution, apart from its signature. -/
theorem symbol_cases {id : SymId} {s : Symbol} (hs : g.find? id = some s) :
    (id = .root ∧ s.unsigned = ⟨none, none, .space⟩) ∨
      ∃ d place copy fields inside, d ∈ all ∧ Placed all place ∧
        Heads place copy fields d inside ∧ (id, s.unsigned) ∈ d.symbols := by
  have hmem : (id, s.unsigned) ∈ (declaredGraph all).symbols :=
    h.symbols_eq ▸ List.mem_map_of_mem (h.find?_eq_some.1 hs)
  rcases List.mem_cons.1 hmem with hroot | hmem
  · exact .inl (by simpa using hroot)
  · obtain ⟨d, hd, hmem⟩ := List.mem_flatMap.1 hmem
    obtain ⟨place, copy, fields, inside, hplaced, hheads⟩ := h.located d hd
    exact .inr ⟨d, place, copy, fields, inside, hd, hplaced, hheads, hmem⟩

/-- What is listed is in the graph, possibly with a signature. -/
lemma find?_of_mem {id : SymId} {u : Symbol} (hu : (id, u) ∈ (declaredGraph all).symbols) :
    ∃ s, g.find? id = some s ∧ s.unsigned = u := by
  rw [← h.symbols_eq] at hu
  obtain ⟨⟨id', s⟩, hmem, heq⟩ := List.mem_map.1 hu
  obtain ⟨rfl, rfl⟩ := Prod.mk.inj heq
  exact ⟨s, h.find?_eq_some.2 hmem, rfl⟩

/-- The symbols of a contribution are in the graph. -/
lemma find?_of_declared {d : Declared} (hd : d ∈ all) {id : SymId} {u : Symbol}
    (hu : (id, u) ∈ d.symbols) : ∃ s, g.find? id = some s ∧ s.unsigned = u :=
  h.find?_of_mem (List.mem_cons_of_mem _ (List.mem_flatMap.2 ⟨d, hd, hu⟩))

/-- Apart from signatures the symbols are those of the graph of the list. -/
lemma find?_unsigned (id : SymId) :
    (g.find? id).map Symbol.unsigned = (declaredGraph all).find? id := by
  rw [Graph.find?, Graph.find?, ← h.symbols_eq, Table.get?_map]

/-- The kinds of symbols are those of the list. -/
lemma kind?_eq (id : SymId) : g.kind? id = (declaredGraph all).kind? id := by
  rw [Graph.kind?, Graph.kind?, ← h.find?_unsigned, Option.map_map]
  congr 1
  funext s
  exact s.kind_unsigned.symm

/-- The aggregates around symbols are those of the list. -/
lemma outerAggregate?_eq (id : SymId) :
    g.outerAggregate? id = (declaredGraph all).outerAggregate? id := by
  have hparent : (g.find? id).bind Symbol.parent =
      ((declaredGraph all).find? id).bind Symbol.parent := by
    rw [← h.find?_unsigned]
    cases g.find? id <;> rfl
  have haggregate : g.isAggregate = (declaredGraph all).isAggregate := by
    funext id
    rw [Bool.eq_iff_iff, Graph.isAggregate_eq_true, Graph.isAggregate_eq_true, h.kind?_eq]
  rw [Graph.outerAggregate?, Graph.outerAggregate?, hparent, haggregate]

/-- The root has neither a name nor a parent. -/
lemma root_symbol : g.find? .root = some ⟨none, none, .space⟩ := by
  have hmem : (SymId.root, ⟨none, none, .space⟩) ∈ (declaredGraph all).symbols :=
    List.mem_cons_self
  obtain ⟨⟨name, parent, detail⟩, hs, hu⟩ := h.find?_of_mem hmem
  cases detail <;> simp_all [Symbol.unsigned, Detail.unsigned]

/-- The symbol at a place is in the graph and of the kind that the place has. -/
lemma find?_placed {place : Place} (hplaced : Placed all place) :
    ∃ s, g.find? place.id = some s ∧ s.kind = place.surroundings.kind := by
  cases hplaced with
  | top => exact ⟨_, h.root_symbol, rfl⟩
  | inside _ hheads hd =>
    obtain ⟨s, hs, hu⟩ := h.find?_of_declared hd (List.mem_cons_self (a := (_, _)))
    rw [← hheads.inside_kind, hheads.inside_id]
    exact ⟨s, hs, by rw [← hu, Symbol.kind_unsigned]⟩

/-- Every symbol but the root has a parent. -/
lemma parent {id : SymId} {s : Symbol} (hs : g.find? id = some s) (hid : id ≠ .root) :
    ∃ parent around, s.parent = some parent ∧ g.find? parent = some around ∧
      around.kind.encloses s.kind = true ∧ parent.steps.length < id.steps.length := by
  rcases h.symbol_cases hs with ⟨hroot, _⟩ | ⟨d, place, _, _, _, hd, hplaced, hheads, hmem⟩
  · exact absurd hroot hid
  · have hparent := hheads.parent_of_mem hmem
    rw [Symbol.parent_unsigned, Symbol.kind_unsigned] at hparent
    rcases hparent with ⟨hparent, henc, hlt⟩ | ⟨hparent, henc, hlt⟩
    · obtain ⟨around, haround, hkind⟩ := h.find?_placed hplaced
      exact ⟨place.id, around, hparent, haround, hkind ▸ henc, hlt⟩
    · obtain ⟨around, haround, hu⟩ := h.find?_of_declared hd (List.mem_cons_self (a := (_, _)))
      exact ⟨d.id, around, hparent, haround, by rw [← hu, Symbol.kind_unsigned] at henc; exact henc,
        hlt⟩

/-- One step above a symbol there is a symbol. -/
lemma above {id : SymId} {s : Symbol} (hs : g.find? id = some s) {step : Step}
    {rest : List Step} (hsteps : id.steps = step :: rest) :
    ∃ above around, g.find? above = some around ∧ above.steps = rest := by
  rcases h.symbol_cases hs with ⟨rfl, _⟩ | ⟨d, place, _, _, _, hd, hplaced, hheads, hmem⟩
  · simp [SymId.root] at hsteps
  · obtain ⟨step', rfl | rfl⟩ := hheads.above_of_mem hmem
    · obtain ⟨around, haround, _⟩ := h.find?_placed hplaced
      exact ⟨place.id, around, haround, List.tail_eq_of_cons_eq hsteps⟩
    · obtain ⟨around, haround, _⟩ := h.find?_of_declared hd (List.mem_cons_self (a := (_, _)))
      exact ⟨d.id, around, haround, List.tail_eq_of_cons_eq hsteps⟩

/-- At every place on the way from a symbol to the root there is a symbol. -/
lemma find?_of_suffix {id : SymId} {s : Symbol} (hs : g.find? id = some s) {steps : List Step}
    (hsuffix : steps <:+ id.steps) : ∃ above around, g.find? above = some around ∧
      above.steps = steps := by
  obtain ⟨front, hfront⟩ := hsuffix
  induction front generalizing id s with
  | nil => exact ⟨id, s, hs, hfront.symm⟩
  | cons step front ih =>
    obtain ⟨id', s', hs', hsteps⟩ := h.above hs hfront.symm
    exact ih hs' hsteps.symm

/-- No symbol lies deeper than there are symbols.

**Proof sketch.** The places on the way to the root are pairwise different, because they lie at
different depths, and there is a symbol at each of them. -/
lemma depth {id : SymId} {s : Symbol} (hs : g.find? id = some s) :
    id.steps.length < g.size := by
  have hnodup : ((List.range (id.steps.length + 1)).map id.steps.drop).Nodup := by
    refine List.Nodup.map_on (fun i hi j hj hij => ?_) List.nodup_range
    have hlen := congrArg List.length hij
    rw [List.mem_range] at hi hj
    rw [List.length_drop, List.length_drop] at hlen
    omega
  have hsubset : (List.range (id.steps.length + 1)).map id.steps.drop ⊆
      g.symbols.map fun e => e.1.steps := by
    intro steps hmem
    obtain ⟨i, _, rfl⟩ := List.mem_map.1 hmem
    obtain ⟨above, around, haround, hsteps⟩ := h.find?_of_suffix hs (List.drop_suffix i id.steps)
    exact List.mem_map.2 ⟨_, h.find?_eq_some.1 haround, hsteps⟩
  have hle := (List.subperm_of_subset hnodup hsubset).length_le
  rw [List.length_map, List.length_range, List.length_map] at hle
  exact hle

/-- The graph is rooted. -/
lemma rooted : g.Rooted where
  root_eq := h.root_eq
  root_symbol := h.root_symbol
  parent := h.parent
  depth := h.depth

/-- The parameters of all levels at a place are as many as the place says. -/
lemma length_typeVarsAll {place : Place} (hplaced : Placed all place) :
    (g.typeVarsAll place.id).length = place.surroundings.params := by
  induction hplaced with
  | top =>
    rw [Graph.typeVarsAll_eq_nil (by simp [Graph.kind?, Place.top, h.root_symbol, Symbol.kind,
      Detail.kind])]
    rfl
  | @inside place copy fields d inside hplaced hheads hd ih =>
    obtain ⟨s, hs, hu⟩ := h.find?_of_declared hd (List.mem_cons_self (a := (_, _)))
    cases hheads with
    | space _ _ hplace =>
      rw [Graph.typeVarsAll_eq_nil]
      · simp [hplace, Surroundings.params]
      · have hkind : s.kind = .space := by rw [← Symbol.kind_unsigned, hu]; rfl
        simp [Graph.kind?, hs, hkind]
    | aggregate kind names broken =>
      have hparent : s.parent = some place.id := by rw [← Symbol.parent_unsigned, hu]
      have hdetail := Symbol.unsigned_eq_aggregate.1 (congrArg Symbol.detail hu)
      rw [h.rooted.typeVarsAll_eq hs hdetail hparent, List.length_append, ih]
      simp [Surroundings.params, typeParams]

/-- The parameters of an aggregate are numbered behind those around it.

**Proof sketch.** An aggregate in the graph is the head of its declaration: what is generated along
with declarations is of another kind.  The head was given the parameters that are numbered behind
those of its place. -/
lemma typeVars {id : SymId} {s : Symbol} {a : Aggregate} (hs : g.find? id = some s)
    (ha : s.detail = .aggregate a) : ∃ (parent : SymId) (names : List String),
      s.parent = some parent ∧
        a.typeVars = typeParams (g.typeVarsAll parent).length false (names.map some) := by
  have hdetail := Symbol.unsigned_eq_aggregate.2 ha
  rcases h.symbol_cases hs with ⟨_, hu⟩ | ⟨d, place, _, _, _, hd, hplaced, hheads, hmem⟩
  · simp [hu] at hdetail
  · simp only [Declared.symbols, List.mem_cons, List.mem_map, Prod.mk.injEq] at hmem
    cases hheads with
    | aggregate kind names broken =>
      rcases hmem with ⟨_, hu⟩ | ⟨e, he, _, hu⟩
      · rw [hu, Detail.aggregate.injEq] at hdetail
        refine ⟨place.id, names, by rw [← Symbol.parent_unsigned, hu], ?_⟩
        rw [← hdetail, h.length_typeVarsAll hplaced]
      · obtain ⟨_, _, rfl⟩ := List.mem_mapIdx.1 he
        simp [← hu] at hdetail
    | space | field | method =>
      rcases hmem with ⟨_, hu⟩ | ⟨e, he, _⟩
      · simp [hu] at hdetail
      · cases he
    | property | event =>
      rcases hmem with ⟨_, hu⟩ | ⟨e, he, _, hu⟩
      · simp [hu] at hdetail
      · obtain ⟨_, _, rfl⟩ := List.mem_map.1 he
        simp [← hu, accessor] at hdetail

/-- **The graph of what a walk lists is nested.** -/
theorem nested : g.Nested where
  toRooted := h.rooted
  typeVars := h.typeVars

end Holds

end Document

end DisplayNames
