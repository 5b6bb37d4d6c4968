import DisplayNames.Graph.Declare
import DisplayNames.Proofs.WellFormedTypes

/-!
# Nested graphs

In the graph of a document every symbol but the root has a parent, which lies closer to the root and
is of a kind that can have it as a member.  So the symbols around a symbol are those that its place
suggests, and the bounds on the length of a chain are never reached.

The type parameters of an aggregate are numbered behind those of the aggregates around it, so an
aggregate instantiated over its own parameters is a well-formed instantiation.

## Main definitions

* `DisplayNames.SymbolKind.encloses` — the kinds that can have members of a kind.
* `DisplayNames.Graph.Rooted` — every symbol but the root has a parent.
* `DisplayNames.Graph.Nested` — the type parameters are numbered through all levels.

## Main results

* `DisplayNames.Graph.Rooted.chain_eq` — a chain goes on with the chain of the parent.
* `DisplayNames.Graph.Rooted.thisInst?_eq`, `DisplayNames.Graph.Rooted.typeVarsAll_eq` — the
  instantiation and the parameters of an aggregate in terms of those of its parent.
* `DisplayNames.Graph.Nested.instantiate_wellFormed` — instantiations of aggregates are well-formed.
-/

set_option relaxedAutoImplicit false
set_option autoImplicit false

namespace DisplayNames

/-- A symbol of the first kind can have members of the second kind. -/
def SymbolKind.encloses : SymbolKind → SymbolKind → Bool
  | .space, inner => inner = .space || inner = .aggregate
  | .aggregate, inner => inner ≠ .space && inner ≠ .localVariable && inner ≠ .scope
  | _, _ => false

/-- Only namespaces and aggregates have members. -/
lemma SymbolKind.outer_of_encloses {outer inner : SymbolKind}
    (h : outer.encloses inner = true) : outer = .space ∨ outer = .aggregate := by
  cases outer <;> simp [encloses] at h ⊢

/-- The members of namespaces are namespaces and aggregates. -/
lemma SymbolKind.space_encloses {inner : SymbolKind} :
    SymbolKind.space.encloses inner = true ↔ inner = .space ∨ inner = .aggregate := by
  simp [encloses]

/-- Nothing has scopes as members. -/
lemma SymbolKind.encloses_scope (outer : SymbolKind) : outer.encloses .scope = false := by
  cases outer <;> rfl

/-- A graph in which every symbol but the root has a parent. -/
structure Graph.Rooted (g : Graph) : Prop where
  root_eq : g.root = .root
  root_symbol : g.find? .root = some ⟨none, none, .space⟩
  /-- The parent of a symbol lies closer to the root. -/
  parent {id : SymId} {s : Symbol} : g.find? id = some s → id ≠ .root →
    ∃ parent around, s.parent = some parent ∧ g.find? parent = some around ∧
      around.kind.encloses s.kind = true ∧ parent.steps.length < id.steps.length
  /-- No symbol lies deeper than there are symbols. -/
  depth {id : SymId} {s : Symbol} : g.find? id = some s → id.steps.length < g.size

/-- A graph in which type parameters are numbered through all levels. -/
structure Graph.Nested (g : Graph) : Prop extends Graph.Rooted g where
  /-- The parameters of an aggregate are numbered behind those around it. -/
  typeVars {id : SymId} {s : Symbol} {a : Aggregate} : g.find? id = some s →
    s.detail = .aggregate a → ∃ (parent : SymId) (names : List String), s.parent = some parent ∧
      a.typeVars = typeParams (g.typeVarsAll parent).length false (names.map some)

/-- A symbol with the details of an aggregate is an aggregate. -/
lemma Symbol.aggregate?_eq_some {s : Symbol} {a : Aggregate} :
    s.aggregate? = some a ↔ s.detail = .aggregate a := by
  unfold aggregate?
  split <;> simp_all

/-- A symbol is an aggregate exactly if it has the details of one. -/
lemma Symbol.kind_eq_aggregate {s : Symbol} :
    s.kind = .aggregate ↔ ∃ a, s.detail = .aggregate a := by
  unfold kind Detail.kind
  split <;> simp_all

/-- The type parameters of a declaration are well-formed. -/
lemma typeParams_wellFormed {g : Graph} {first : Nat} {ofMethod : Bool}
    {names : List (Option String)} :
    ∀ t ∈ typeParams first ofMethod names, t.WellFormed g := by
  intro t ht
  obtain ⟨i, _, rfl⟩ := List.mem_mapIdx.1 ht
  exact .param (by simp only [Ordinal.value]; omega)

/-- Parameters behind others are numbered behind them. -/
lemma typeParams_append (first : Nat) (ofMethod : Bool) (front back : List (Option String)) :
    typeParams first ofMethod (front ++ back) =
      typeParams first ofMethod front ++ typeParams (first + front.length) ofMethod back := by
  unfold typeParams
  rw [List.mapIdx_append]
  congr 1
  refine List.mapIdx_eq_mapIdx_iff.2 fun i _ => ?_
  rw [show first + (i + front.length) = first + front.length + i by omega]

/-- The parameter at a position has the number of the position and a name. -/
lemma getElem?_typeParams {first : Nat} {ofMethod : Bool} {names : List String} {i : Nat}
    {t : Ty} (ht : (typeParams first ofMethod (names.map some))[i]? = some t) :
    ∃ name, t = .param (.number (first + i : Nat)) ofMethod (some name) := by
  unfold typeParams at ht
  rw [List.getElem?_mapIdx, List.getElem?_map, Option.map_map, Option.map_eq_some_iff] at ht
  obtain ⟨name, _, rfl⟩ := ht
  exact ⟨name, rfl⟩

namespace Graph

variable {g : Graph}

/-- The symbols that count as aggregates are those of that kind. -/
lemma isAggregate_eq_true {id : SymId} :
    g.isAggregate id = true ↔ g.kind? id = some .aggregate := by
  unfold isAggregate kind?
  cases hs : g.find? id with
  | none => simp
  | some s =>
    simp [Option.isSome_iff_exists, Symbol.aggregate?_eq_some, Symbol.kind_eq_aggregate]

/-- The aggregate around a symbol is its parent, if that is an aggregate. -/
lemma outerAggregate?_eq_some {id outer : SymId} {s : Symbol} (hs : g.find? id = some s) :
    g.outerAggregate? id = some outer ↔
      s.parent = some outer ∧ g.kind? outer = some .aggregate := by
  simp [outerAggregate?, hs, Option.filter_eq_some_iff, isAggregate_eq_true]

/-- There is no aggregate around a symbol whose parent is of another kind. -/
lemma outerAggregate?_eq_none {id parent : SymId} {s : Symbol} (hs : g.find? id = some s)
    (hparent : s.parent = some parent) :
    g.outerAggregate? id = none ↔ g.kind? parent ≠ some .aggregate := by
  simp [outerAggregate?, hs, hparent, Option.filter, ← isAggregate_eq_true]

/-- A symbol that is no aggregate has no levels. -/
lemma levels_eq_nil {id : SymId} (hkind : g.kind? id ≠ some .aggregate) : g.levels id = [] := by
  unfold levels chain
  cases g.size with
  | zero => rfl
  | succ n =>
    cases hs : g.find? id with
    | none => simp [chainUpTo, hs, leadingAggregates]
    | some s =>
      have hnone : s.aggregate? = none := by
        rw [Option.eq_none_iff_forall_ne_some]
        intro a ha
        refine hkind ?_
        rw [kind?, hs, Option.map_some, Symbol.kind_eq_aggregate.2
          ⟨a, Symbol.aggregate?_eq_some.1 ha⟩]
      simp [chainUpTo, hs, leadingAggregates, hnone]

/-- Only aggregates are instantiated. -/
lemma thisInst?_eq_none {id : SymId} (hkind : g.kind? id ≠ some .aggregate) :
    g.thisInst? id = none := by
  rw [thisInst?, levels_eq_nil hkind, instOfLevels]

/-- Only aggregates have type parameters. -/
lemma typeVarsAll_eq_nil {id : SymId} (hkind : g.kind? id ≠ some .aggregate) :
    g.typeVarsAll id = [] := by
  rw [typeVarsAll, levels_eq_nil hkind]
  rfl

namespace Rooted

variable (h : g.Rooted)
include h

/-! ## Chains -/

/-- The symbol with a parent is not the root, and its parent is in the graph and lies closer to the
root. -/
lemma parent_of_eq {id parent : SymId} {s : Symbol} (hs : g.find? id = some s)
    (hparent : s.parent = some parent) :
    ∃ around, g.find? parent = some around ∧ around.kind.encloses s.kind = true ∧
      parent.steps.length < id.steps.length := by
  have hroot : id ≠ .root := by
    rintro rfl
    rw [h.root_symbol, Option.some.injEq] at hs
    simp [← hs] at hparent
  obtain ⟨parent', around, hparent', haround, henc, hlt⟩ := h.parent hs hroot
  rw [hparent, Option.some.injEq] at hparent'
  exact ⟨around, hparent' ▸ haround, henc, hparent' ▸ hlt⟩

/-- A chain is complete as soon as the bound exceeds the depth of the symbol. -/
lemma chainUpTo_eq {id : SymId} {s : Symbol} (hs : g.find? id = some s) {bound bound' : Nat}
    (hb : id.steps.length < bound) (hb' : id.steps.length < bound') :
    g.chainUpTo bound id = g.chainUpTo bound' id := by
  induction bound generalizing bound' id s with
  | zero => omega
  | succ bound ih =>
    obtain ⟨bound', rfl⟩ : ∃ n, bound' = n + 1 := ⟨bound' - 1, by omega⟩
    simp only [chainUpTo, hs]
    cases hparent : s.parent with
    | none => rfl
    | some parent =>
      obtain ⟨around, haround, _, hlt⟩ := h.parent_of_eq hs hparent
      have htail : g.chainUpTo bound parent = g.chainUpTo bound' parent :=
        ih haround (by omega) (by omega)
      simp only [htail]

/-- A chain goes on with the chain of the parent. -/
theorem chain_eq {id parent : SymId} {s : Symbol} (hs : g.find? id = some s)
    (hparent : s.parent = some parent) : g.chain id = (id, s) :: g.chain parent := by
  obtain ⟨around, haround, _, hlt⟩ := h.parent_of_eq hs hparent
  have hdepth := h.depth hs
  have hstep : g.chain id = g.chainUpTo (g.size + 1) id := h.chainUpTo_eq hs hdepth (by omega)
  rw [hstep, chainUpTo]
  simp only [hs, hparent, chain]

/-- The levels of an aggregate go on with those of its parent. -/
lemma levels_eq {id parent : SymId} {s : Symbol} {a : Aggregate} (hs : g.find? id = some s)
    (ha : s.detail = .aggregate a) (hparent : s.parent = some parent) :
    g.levels id = (id, a) :: g.levels parent := by
  rw [levels, h.chain_eq hs hparent, leadingAggregates, Symbol.aggregate?_eq_some.2 ha]
  rfl

/-- An aggregate is instantiated over its own parameters inside its parent over those of the
parent. -/
theorem thisInst?_eq {id parent : SymId} {s : Symbol} {a : Aggregate} (hs : g.find? id = some s)
    (ha : s.detail = .aggregate a) (hparent : s.parent = some parent) :
    g.thisInst? id = some (.mk id a.typeVars (g.thisInst? parent)) := by
  rw [thisInst?, h.levels_eq hs ha hparent, instOfLevels]
  rfl

/-- The parameters of all levels are those of the parent and then the own ones. -/
theorem typeVarsAll_eq {id parent : SymId} {s : Symbol} {a : Aggregate} (hs : g.find? id = some s)
    (ha : s.detail = .aggregate a) (hparent : s.parent = some parent) :
    g.typeVarsAll id = g.typeVarsAll parent ++ a.typeVars := by
  simp [typeVarsAll, h.levels_eq hs ha hparent]

end Rooted

namespace Nested

variable (h : g.Nested)
include h

/-- An aggregate has details and a parent. -/
lemma aggregate_cases {id : SymId} (hkind : g.kind? id = some .aggregate) :
    ∃ s a parent, g.find? id = some s ∧ s.detail = .aggregate a ∧ s.parent = some parent := by
  obtain ⟨s, hs, hk⟩ := Option.map_eq_some_iff.1 hkind
  obtain ⟨a, ha⟩ := Symbol.kind_eq_aggregate.1 hk
  obtain ⟨parent, _, hparent, _⟩ := h.typeVars hs ha
  exact ⟨s, a, parent, hs, ha, hparent⟩

/-- What has an instantiation over its own parameters is an aggregate. -/
lemma cases_of_thisInst? {id : SymId} {inst : Inst} (hthis : g.thisInst? id = some inst) :
    ∃ s a parent, g.find? id = some s ∧ s.detail = .aggregate a ∧ s.parent = some parent ∧
      inst = .mk id a.typeVars (g.thisInst? parent) := by
  by_cases hkind : g.kind? id = some .aggregate
  · obtain ⟨s, a, parent, hs, ha, hparent⟩ := h.aggregate_cases hkind
    rw [h.thisInst?_eq hs ha hparent, Option.some.injEq] at hthis
    exact ⟨s, a, parent, hs, ha, hparent, hthis.symm⟩
  · simp [thisInst?_eq_none hkind] at hthis

/-- The parameters of all levels are numbered through from zero.

**Proof sketch.** Induction on the depth: the parameters of an aggregate are numbered behind those
of its parent, which lies closer to the root. -/
lemma typeVarsAll_eq_typeParams (id : SymId) :
    ∃ names : List String, g.typeVarsAll id = typeParams 0 false (names.map some) := by
  induction hn : id.steps.length using Nat.strongRecOn generalizing id with
  | _ n ih =>
    by_cases hkind : g.kind? id = some .aggregate
    · obtain ⟨s, a, parent, hs, ha, hparent⟩ := h.aggregate_cases hkind
      obtain ⟨_, _, _, hlt⟩ := h.parent_of_eq hs hparent
      obtain ⟨parent', own, hparent', hvars⟩ := h.typeVars hs ha
      obtain rfl : parent = parent' := Option.some.inj (hparent.symm.trans hparent')
      obtain ⟨outer, houter⟩ := ih parent.steps.length (hn ▸ hlt) parent rfl
      have hlength : (g.typeVarsAll parent).length = (outer.map some).length := by
        rw [houter, typeParams, List.length_mapIdx]
      refine ⟨outer ++ own, ?_⟩
      rw [h.typeVarsAll_eq hs ha hparent, hvars, hlength, houter, List.map_append,
        typeParams_append, Nat.zero_add]
    · exact ⟨[], typeVarsAll_eq_nil hkind⟩

/-! ## Well-formed instantiations -/

/-- An aggregate over its own parameters is a well-formed instantiation. -/
lemma thisInst?_wellFormed (id : SymId) : ∀ inst ∈ g.thisInst? id, inst.WellFormed g := by
  induction hn : id.steps.length using Nat.strongRecOn generalizing id with
  | _ n ih =>
    by_cases hkind : g.kind? id = some .aggregate
    · obtain ⟨s, a, parent, hs, ha, hparent⟩ := h.aggregate_cases hkind
      obtain ⟨_, _, _, hlt⟩ := h.parent_of_eq hs hparent
      obtain ⟨_, names, _, hvars⟩ := h.typeVars hs ha
      have hargs : ∀ t ∈ a.typeVars, t.WellFormed g := hvars ▸ typeParams_wellFormed
      rw [h.thisInst?_eq hs ha hparent]
      rintro inst ⟨rfl⟩
      by_cases houter : g.kind? parent = some .aggregate
      · obtain ⟨s', a', parent', hs', ha', hparent'⟩ := h.aggregate_cases houter
        have hinst := ih parent.steps.length (hn ▸ hlt) parent rfl
        rw [h.thisInst?_eq hs' ha' hparent'] at hinst ⊢
        exact .inside hkind hargs (hinst _ rfl)
      · rw [thisInst?_eq_none houter]
        exact .outermost hkind ((outerAggregate?_eq_none hs hparent).2 houter) hargs
    · simp [thisInst?_eq_none hkind]

/-- **Instantiations of aggregates are well-formed**, with or without an enclosing one.

**Proof sketch.** If no enclosing instantiation is given, that of the enclosing aggregate over its
own parameters is taken, which is well-formed. -/
theorem instantiate_wellFormed {id : SymId} {args : List Ty} {outer : Option Inst}
    (hkind : g.kind? id = some .aggregate) (hargs : ∀ t ∈ args, t.WellFormed g)
    (houter : ∀ inst ∈ outer, inst.WellFormed g) : (g.instantiate id args outer).WellFormed g := by
  unfold instantiate
  cases outer with
  | some outer => exact .inside hkind hargs (houter outer rfl)
  | none =>
    cases ho : g.outerAggregate? id with
    | none => exact .outermost hkind ho hargs
    | some parent =>
      obtain ⟨s, _, _, hs, _⟩ := h.aggregate_cases hkind
      obtain ⟨_, hk⟩ := (outerAggregate?_eq_some hs).1 ho
      obtain ⟨s', a', parent', hs', ha', hparent'⟩ := h.aggregate_cases hk
      have hinst := h.thisInst?_wellFormed parent
      rw [h.thisInst?_eq hs' ha' hparent'] at hinst
      rw [Option.none_or, Option.bind_some, h.thisInst?_eq hs' ha' hparent']
      exact .inside hkind hargs (hinst _ rfl)

end Nested

end Graph

end DisplayNames
