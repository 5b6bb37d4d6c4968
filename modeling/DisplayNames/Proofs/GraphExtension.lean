import DisplayNames.Proofs.LoadedDocument

/-!
# Graphs inside larger graphs

A graph lies within another one if every symbol of the first is a symbol of the second, with the
same details and the same parent.  The larger graph may have more symbols anywhere.  A symbol of the
smaller graph has the same surroundings in both, because going outwards never leaves the smaller
graph, and the types of the smaller graph mention symbols of the smaller graph alone.

## Main definitions

* `DisplayNames.Graph.Within` — every symbol of a graph is one of another graph.

## Main results

* `DisplayNames.Graph.Within.chain_eq` — the symbols around a symbol are the same.
* `DisplayNames.Graph.Within.wellFormed` — well-formed types stay well-formed.
* `DisplayNames.Graph.Within.signatureBogus_eq` — signatures are as bogus as before.
-/

set_option relaxedAutoImplicit false
set_option autoImplicit false

namespace DisplayNames

/-- Every symbol of the first graph is a symbol of the second one. -/
structure Graph.Within (g g' : Graph) : Prop where
  root_eq : g'.root = g.root
  find? {id : SymId} {s : Symbol} : g.find? id = some s → g'.find? id = some s

namespace Graph.Within

variable {g g' : Graph} (h : g.Within g')
include h

/-! ## Surroundings -/

/-- Symbols keep their kind. -/
lemma kind? {id : SymId} {kind : SymbolKind} (hkind : g.kind? id = some kind) :
    g'.kind? id = some kind := by
  obtain ⟨s, hs, rfl⟩ := Option.map_eq_some_iff.1 hkind
  rw [Graph.kind?, h.find? hs]
  rfl

section

variable {id : SymId} {s : Symbol} (hs : g.find? id = some s)
include hs

/-- A symbol is found in both graphs. -/
lemma find?_eq : g'.find? id = g.find? id := by rw [hs, h.find? hs]

/-- A symbol is an aggregate in both graphs or in neither. -/
lemma isAggregate_eq : g'.isAggregate id = g.isAggregate id := by
  rw [isAggregate, isAggregate, h.find?_eq hs]

/-- An aggregate is broken in both graphs or in neither. -/
lemma isBroken_eq : g'.isBroken id = g.isBroken id := by
  rw [isBroken, isBroken, h.find?_eq hs]

variable (hg : g.Rooted)
include hg

/-- Chains with one bound are the same. -/
lemma chainUpTo_eq (bound : Nat) : g'.chainUpTo bound id = g.chainUpTo bound id := by
  induction bound generalizing id s with
  | zero => rfl
  | succ bound ih =>
    unfold chainUpTo
    rw [h.find? hs, hs]
    dsimp only
    cases hparent : s.parent with
    | none => rfl
    | some parent =>
      obtain ⟨around, haround, _⟩ := hg.parent_of_eq hs hparent
      have hrest := ih haround
      dsimp only
      rw [hrest]

/-- There is an aggregate around a symbol in both graphs or in neither. -/
lemma outerAggregate?_eq : g'.outerAggregate? id = g.outerAggregate? id := by
  rw [outerAggregate?, outerAggregate?, h.find? hs, hs, Option.bind_some]
  cases hparent : s.parent with
  | none => rfl
  | some parent =>
    obtain ⟨around, haround, _⟩ := hg.parent_of_eq hs hparent
    simp only [Option.filter, h.isAggregate_eq haround]

variable (hg' : g'.Rooted)
include hg'

/-- **The symbols around a symbol are the same.**  Either graph is large enough for the chain. -/
theorem chain_eq : g'.chain id = g.chain id := by
  have hbound : id.steps.length < g.size := hg.depth hs
  have hbound' : id.steps.length < g'.size := hg'.depth (h.find? hs)
  calc g'.chainUpTo g'.size id = g'.chainUpTo g.size id :=
        hg'.chainUpTo_eq (h.find? hs) hbound' hbound
    _ = g.chainUpTo g.size id := h.chainUpTo_eq hs hg g.size

/-- A symbol keeps its qualified name. -/
lemma qualifiedName_eq : g'.qualifiedName id = g.qualifiedName id := by
  rw [qualifiedName, qualifiedName, h.chain_eq hs hg hg']

/-- An aggregate over its own parameters is the same. -/
lemma thisInst?_eq : g'.thisInst? id = g.thisInst? id := by
  rw [thisInst?, thisInst?, levels, levels, h.chain_eq hs hg hg']

/-- An aggregate keeps the parameters of all its levels. -/
lemma typeVarsAll_eq : g'.typeVarsAll id = g.typeVarsAll id := by
  rw [typeVarsAll, typeVarsAll, levels, levels, h.chain_eq hs hg hg']

/-- An aggregate is instantiated alike. -/
lemma instantiate_eq (args : List Ty) (outer : Option Inst) :
    g'.instantiate id args outer = g.instantiate id args outer := by
  rw [instantiate, instantiate, h.outerAggregate?_eq hs hg]
  cases ho : g.outerAggregate? id with
  | none => rfl
  | some parent =>
    obtain ⟨_, hkind⟩ := (outerAggregate?_eq_some hs).1 ho
    obtain ⟨around, haround, _⟩ := Option.map_eq_some_iff.1 hkind
    rw [Option.bind_some, Option.bind_some, h.thisInst?_eq haround hg hg']

end

/-! ## Types -/

/-- **Well-formed types stay well-formed**, and so do instantiations. -/
theorem wellFormed (hg : g.Rooted) :
    (∀ t : Ty, t.WellFormed g → t.WellFormed g') ∧
      ∀ inst : Inst, inst.WellFormed g → inst.WellFormed g' := by
  refine Ty.WellFormed.mono_parts (fun id kind hkind => h.kind? hkind) fun id hkind hnone => ?_
  obtain ⟨s, hs, _⟩ := Option.map_eq_some_iff.1 hkind
  rw [h.outerAggregate?_eq hs hg, hnone]

/-- Well-formed contexts stay well-formed. -/
lemma context_wellFormed (hg : g.Rooted) {ctx : Option Context}
    (hctx : ∀ c ∈ ctx, c.WellFormed g) : ∀ c ∈ ctx, c.WellFormed g' := by
  intro c hc
  obtain ⟨htype, hmethod⟩ := hctx c hc
  exact ⟨fun t ht => (h.wellFormed hg).1 t (htype t ht),
    fun t ht => (h.wellFormed hg).1 t (hmethod t ht)⟩

/-- Well-formed types mention a broken aggregate in both graphs or in neither.

**Proof sketch.** Induction over well-formed types and instantiations.  The declarations that are
mentioned are symbols of the smaller graph, which are broken in the larger one if they were. -/
lemma isBogus_eq :
    (∀ t : Ty, t.WellFormed g → t.isBogus g'.isBroken = t.isBogus g.isBroken) ∧
      ∀ inst : Inst, inst.WellFormed g →
        Ty.instBogus g'.isBroken inst = Ty.instBogus g.isBroken inst := by
  have hdecl {decl : SymId} (hkind : g.kind? decl = some .aggregate) :
      g'.isBroken decl = g.isBroken decl := by
    obtain ⟨s, hs, _⟩ := Option.map_eq_some_iff.1 hkind
    exact h.isBroken_eq hs
  have hall {args : List Ty} (hargs : ∀ t ∈ args, t.isBogus g'.isBroken = t.isBogus g.isBroken) :
      Ty.anyBogus g'.isBroken args = Ty.anyBogus g.isBroken args := by
    induction args with
    | nil => rfl
    | cons t rest ih =>
      rw [Ty.anyBogus, Ty.anyBogus, hargs t List.mem_cons_self,
        ih fun t ht => hargs t (List.mem_cons_of_mem _ ht)]
  apply Ty.WellFormed.induction_parts
  case aggregate => exact fun _ _ ih => ih
  case array => exact fun _ _ _ _ _ ih => ih
  case pointer | nullable => exact fun _ _ ih => ih
  case byRef => exact fun _ _ _ ih => ih
  case outermost =>
    intro decl args hkind _ _ has
    rw [Ty.instBogus, Ty.instBogus, hdecl hkind, hall has]
  case inside =>
    intro decl args outer hkind _ _ has ho
    simp only [Ty.instBogus, hdecl hkind, ho, hall has]
  all_goals intros; rfl

/-- The signature of a method of a loaded graph is bogus in both graphs or in neither.

**Proof sketch.** The method is the same in both graphs, and the types of its signature are
well-formed in the smaller one. -/
theorem signatureBogus_eq (hg : g.Loaded) {id : SymId} {s : Symbol} (hs : g.find? id = some s) :
    g'.signatureBogus id = g.signatureBogus id := by
  unfold signatureBogus
  rw [h.find? hs, hs, Option.bind_some]
  cases hm : s.method? with
  | none => rfl
  | some m =>
    have hd : s.detail = .method m := by
      unfold Symbol.method? at hm
      split at hm
      · rename_i hd
        rw [hd, Option.some.inj hm]
      · cases hm
    have hmethod := hg.method hs hd
    have hreturns : m.returns.map (Ty.isBogus g'.isBroken) =
        m.returns.map (Ty.isBogus g.isBroken) :=
      Option.map_congr fun t ht => h.isBogus_eq.1 t (hmethod.returns t ht)
    have hparams : m.params.any (Ty.isBogus g'.isBroken) =
        m.params.any (Ty.isBogus g.isBroken) := by
      rw [Bool.eq_iff_iff, List.any_eq_true, List.any_eq_true]
      refine exists_congr fun t => and_congr_right fun ht => ?_
      rw [h.isBogus_eq.1 t (hmethod.params t ht)]
    dsimp only
    rw [hreturns, hparams]

end Graph.Within

end DisplayNames
