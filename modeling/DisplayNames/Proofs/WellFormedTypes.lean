import DisplayNames.Proofs.TypeTraversal
import DisplayNames.Render.Symbol

/-!
# Well-formed types

The types that a graph document can contain.  An instantiation is one of a declared aggregate, and
of a nested one only inside an instantiation of the aggregate around it; an unresolved type has a
parent with a name and arguments, or nothing at all; ranks and positions are in range; nothing lies
outside the closed set.

Substitution puts well-formed types into well-formed types, so it never leaves them.

## Main definitions

* `DisplayNames.Graph.kind?` — the kind of a declared symbol.
* `DisplayNames.Ty.WellFormed`, `DisplayNames.Inst.WellFormed` — well-formed types.
* `DisplayNames.Context.WellFormed` — contexts of well-formed types.

## Main results

* `DisplayNames.Ty.WellFormed.induction_parts` — induction over well-formed types.
* `DisplayNames.Ty.WellFormed.mono_parts` — what is well-formed stays so while kinds and
  surroundings are kept.
* `DisplayNames.Ty.WellFormed.subst` — substitution keeps types well-formed.
* `DisplayNames.Context.WellFormed.slotContext` — so does the context of a slot.
-/

set_option relaxedAutoImplicit false
set_option autoImplicit false

namespace DisplayNames

/-- The kind of a declared symbol. -/
def Graph.kind? (g : Graph) (id : SymId) : Option SymbolKind := (g.find? id).map Symbol.kind

mutual

/-- A type that a document over the graph can contain. -/
inductive Ty.WellFormed (g : Graph) : Ty → Prop
  | aggregate {inst : Inst} : Inst.WellFormed g inst → Ty.WellFormed g (.aggregate inst)
  | param {index : Ordinal} {ofMethod : Bool} {name : Option String} :
    0 ≤ index.value → Ty.WellFormed g (.param index ofMethod name)
  | array {element : Ty} {rank : Ordinal} {vector : Bool} :
    Ty.WellFormed g element → 1 ≤ rank.value → Ty.WellFormed g (.array element rank vector)
  | pointer {referent : Ty} : Ty.WellFormed g referent → Ty.WellFormed g (.pointer referent)
  | nullable {underlying : Ty} :
    Ty.WellFormed g underlying → Ty.WellFormed g (.nullable underlying)
  | byRef {target : Ty} {out : Bool} :
    Ty.WellFormed g target → Ty.WellFormed g (.byRef target out)
  /-- An unresolved type about which nothing is known. -/
  | unresolved : Ty.WellFormed g (.error none none none none)
  | errorInType {parent : Ty} {name : String} {args : List Ty} :
    Ty.WellFormed g parent → (∀ t ∈ args, Ty.WellFormed g t) →
      Ty.WellFormed g (.error (some parent) none (some name) (some args))
  | errorInSpace {space : SymId} {name : String} {args : List Ty} :
    g.kind? space = some .space → (∀ t ∈ args, Ty.WellFormed g t) →
      Ty.WellFormed g (.error none (some space) (some name) (some args))
  | null : Ty.WellFormed g .null
  | void : Ty.WellFormed g .void
  | boundLambda : Ty.WellFormed g .boundLambda
  | unboundLambda : Ty.WellFormed g .unboundLambda
  | methodGroup : Ty.WellFormed g .methodGroup
  | argumentList : Ty.WellFormed g .argumentList
  | placeholder : Ty.WellFormed g .placeholder

/-- An instantiation that a document over the graph can contain. -/
inductive Inst.WellFormed (g : Graph) : Inst → Prop
  | outermost {decl : SymId} {args : List Ty} :
    g.kind? decl = some .aggregate → g.outerAggregate? decl = none →
      (∀ t ∈ args, Ty.WellFormed g t) → Inst.WellFormed g (.mk decl args none)
  | inside {decl : SymId} {args : List Ty} {outer : Inst} :
    g.kind? decl = some .aggregate → (∀ t ∈ args, Ty.WellFormed g t) →
      Inst.WellFormed g outer → Inst.WellFormed g (.mk decl args (some outer))

end

/-- A context that a document over the graph can contain. -/
def Context.WellFormed (g : Graph) (ctx : Context) : Prop :=
  (∀ t ∈ ctx.ofType, t.WellFormed g) ∧ ∀ t ∈ ctx.ofMethod, t.WellFormed g

variable {g : Graph}

/-- The arguments of all levels of a well-formed instantiation are well-formed. -/
lemma Inst.WellFormed.argsAll :
    ∀ {inst : Inst}, inst.WellFormed g → ∀ t ∈ inst.argsAll, t.WellFormed g
  | .mk _ _ none, h, t, ht => by
    cases h with
    | outermost _ _ hargs => exact hargs t (by simpa [Inst.argsAll] using ht)
  | .mk _ _ (some outer), h, t, ht => by
    cases h with
    | inside _ hargs houter =>
      rw [Inst.argsAll, List.mem_append] at ht
      rcases ht with ht | ht
      · exact houter.argsAll t ht
      · exact hargs t ht

/-- The context of members found on a well-formed instantiation is well-formed. -/
lemma Context.WellFormed.ofInst {on : Option Inst} {ofMethod : List Ty}
    (hon : ∀ inst ∈ on, inst.WellFormed g) (hmethod : ∀ t ∈ ofMethod, t.WellFormed g) :
    (Context.ofInst on ofMethod).WellFormed g := by
  refine ⟨?_, hmethod⟩
  cases on with
  | none => simp [Context.ofInst]
  | some inst => exact (hon inst rfl).argsAll

/-- **Induction over well-formed types and instantiations.**

**Proof sketch.** Induction over types and instantiations.  The form of what is well-formed fixes
the rule by which it is, so its parts are well-formed. -/
theorem Ty.WellFormed.induction_parts {P : Ty → Prop} {Q : Inst → Prop}
    (aggregate : ∀ inst, inst.WellFormed g → Q inst → P (.aggregate inst))
    (param : ∀ index ofMethod name, 0 ≤ index.value → P (.param index ofMethod name))
    (array : ∀ element rank vector, element.WellFormed g → 1 ≤ rank.value → P element →
      P (.array element rank vector))
    (pointer : ∀ referent, referent.WellFormed g → P referent → P (.pointer referent))
    (nullable : ∀ underlying, underlying.WellFormed g → P underlying → P (.nullable underlying))
    (byRef : ∀ target out, target.WellFormed g → P target → P (.byRef target out))
    (unresolved : P (.error none none none none))
    (errorInType : ∀ parent name args, parent.WellFormed g → (∀ t ∈ args, t.WellFormed g) →
      P parent → (∀ t ∈ args, P t) → P (.error (some parent) none (some name) (some args)))
    (errorInSpace : ∀ space name args, g.kind? space = some .space →
      (∀ t ∈ args, t.WellFormed g) → (∀ t ∈ args, P t) →
        P (.error none (some space) (some name) (some args)))
    (null : P .null) (void : P .void) (boundLambda : P .boundLambda)
    (unboundLambda : P .unboundLambda) (methodGroup : P .methodGroup)
    (argumentList : P .argumentList) (placeholder : P .placeholder)
    (outermost : ∀ decl args, g.kind? decl = some .aggregate → g.outerAggregate? decl = none →
      (∀ t ∈ args, t.WellFormed g) → (∀ t ∈ args, P t) → Q (.mk decl args none))
    (inside : ∀ decl args outer, g.kind? decl = some .aggregate → (∀ t ∈ args, t.WellFormed g) →
      outer.WellFormed g → (∀ t ∈ args, P t) → Q outer → Q (.mk decl args (some outer))) :
    (∀ t : Ty, t.WellFormed g → P t) ∧ ∀ inst : Inst, inst.WellFormed g → Q inst := by
  apply Ty.induction_parts
  case aggregate =>
    intro inst ih ht
    cases ht with
    | aggregate hinst => exact aggregate inst hinst (ih hinst)
  case param =>
    intro i m n ht
    cases ht with
    | param hi => exact param i m n hi
  case array =>
    intro element rank vector ih ht
    cases ht with
    | array helement hrank => exact array element rank vector helement hrank (ih helement)
  case pointer =>
    intro referent ih ht
    cases ht with
    | pointer ht => exact pointer referent ht (ih ht)
  case nullable =>
    intro underlying ih ht
    cases ht with
    | nullable ht => exact nullable underlying ht (ih ht)
  case byRef =>
    intro target out ih ht
    cases ht with
    | byRef ht => exact byRef target out ht (ih ht)
  case error =>
    intro parent space name args hp has ht
    cases ht with
    | unresolved => exact unresolved
    | errorInType hparent hargs =>
      exact errorInType _ _ _ hparent hargs (hp _ rfl hparent)
        fun t ht => has _ rfl t ht (hargs t ht)
    | errorInSpace hspace hargs =>
      exact errorInSpace _ _ _ hspace hargs fun t ht => has _ rfl t ht (hargs t ht)
  case inst =>
    intro decl args outer has ho hinst
    cases hinst with
    | outermost hdecl hnone hargs =>
      exact outermost decl args hdecl hnone hargs fun t ht => has t ht (hargs t ht)
    | inside hdecl hargs hinst =>
      exact inside decl args _ hdecl hargs hinst (fun t ht => has t ht (hargs t ht))
        (ho _ rfl hinst)
  case unknown =>
    intro tag ht
    cases ht
  all_goals intros; assumption

/-- What is well-formed stays so over a graph that keeps the kinds of declarations and puts no
aggregate around an aggregate that had none. -/
theorem Ty.WellFormed.mono_parts {g' : Graph}
    (hkind : ∀ id kind, g.kind? id = some kind → g'.kind? id = some kind)
    (houter : ∀ id, g.kind? id = some .aggregate → g.outerAggregate? id = none →
      g'.outerAggregate? id = none) :
    (∀ t : Ty, t.WellFormed g → t.WellFormed g') ∧
      ∀ inst : Inst, inst.WellFormed g → inst.WellFormed g' := by
  apply Ty.WellFormed.induction_parts
  case aggregate => exact fun _ _ ih => .aggregate ih
  case param => exact fun _ _ _ hi => .param hi
  case array => exact fun _ _ _ _ hrank ih => .array ih hrank
  case pointer => exact fun _ _ ih => .pointer ih
  case nullable => exact fun _ _ ih => .nullable ih
  case byRef => exact fun _ _ _ ih => .byRef ih
  case errorInType => exact fun _ _ _ _ _ hp has => .errorInType hp has
  case errorInSpace => exact fun _ _ _ hspace _ has => .errorInSpace (hkind _ _ hspace) has
  case outermost =>
    exact fun _ _ hdecl hnone _ has =>
      .outermost (hkind _ _ hdecl) (houter _ hdecl hnone) has
  case inside => exact fun _ _ _ hdecl _ _ has ho => .inside (hkind _ _ hdecl) has ho
  all_goals constructor

/-! ## Substitution -/

/-- The entry of a well-formed context for a position is well-formed. -/
lemma Context.WellFormed.find? {ctx : Context} (h : ctx.WellFormed g) {i : Ordinal} {m : Bool}
    {t : Ty} (ht : ctx.find? i m = some t) : t.WellFormed g := by
  unfold Context.find? at ht
  split at ht
  · exact absurd ht (by simp)
  · cases m with
    | false => exact h.1 t (List.mem_of_getElem? (by simpa using ht))
    | true => exact h.2 t (List.mem_of_getElem? (by simpa using ht))

/-- A choice between well-formed types is well-formed. -/
lemma Ty.WellFormed.ite {c : Prop} [Decidable c] {t u : Ty} (ht : t.WellFormed g)
    (hu : u.WellFormed g) : (if c then t else u).WellFormed g := by
  split
  · exact ht
  · exact hu

/-- Replacing the parameters of a well-formed type by well-formed types keeps it well-formed.

**Proof sketch.** Induction over well-formed types and instantiations.  What comes out is the
original or has the same form with replaced parts, which are well-formed by induction. -/
lemma Ty.WellFormed.replace_parts {ctx : Context} (h : ctx.WellFormed g) :
    (∀ t : Ty, t.WellFormed g → (t.replace ctx).WellFormed g) ∧
      ∀ inst : Inst, inst.WellFormed g → (inst.replace ctx).WellFormed g := by
  apply Ty.WellFormed.induction_parts
  case aggregate => exact fun _ _ ih => .aggregate ih
  case param =>
    intro i m n hi
    unfold Ty.replace
    cases hf : ctx.find? i m with
    | none => exact .param hi
    | some u => exact h.find? hf
  case array => exact fun _ _ _ ht hrank ih => .array (.ite ht ih) hrank
  case pointer => exact fun _ ht ih => .pointer (.ite ht ih)
  case nullable => exact fun _ ht ih => .nullable (.ite ht ih)
  case byRef => exact fun _ _ ht ih => .byRef (.ite ht ih)
  case unresolved =>
    rw [Ty.replace_error]
    exact .ite .unresolved .unresolved
  case errorInType =>
    intro parent name args hparent hargs hp has
    rw [Ty.replace_error]
    exact .ite (.errorInType hparent hargs) (.errorInType hp (by simpa using has))
  case errorInSpace =>
    intro space name args hspace hargs has
    rw [Ty.replace_error]
    exact .ite (.errorInSpace hspace hargs) (.errorInSpace hspace (by simpa using has))
  case outermost =>
    intro decl args hdecl hnone hargs has
    rw [Inst.replace_mk]
    dsimp only
    split
    · exact .outermost hdecl hnone hargs
    · exact .outermost hdecl hnone (by simpa using has)
  case inside =>
    intro decl args outer hdecl hargs houter has ho
    rw [Inst.replace_mk]
    dsimp only
    split
    · exact .inside hdecl hargs houter
    · exact .inside hdecl (by simpa using has) ho
  all_goals constructor

/-- Substitution keeps a type well-formed. -/
theorem Ty.WellFormed.subst {ctx : Option Context} (h : ∀ c ∈ ctx, c.WellFormed g) {t : Ty}
    (ht : t.WellFormed g) : (t.subst ctx).WellFormed g := by
  cases ctx with
  | none => exact ht
  | some c =>
    unfold Ty.subst
    dsimp only
    split
    · exact ht
    · exact (replace_parts (h c rfl)).1 t ht

/-- Substitution keeps an instantiation well-formed. -/
lemma Inst.WellFormed.subst {ctx : Option Context} (h : ∀ c ∈ ctx, c.WellFormed g) {inst : Inst}
    (hinst : inst.WellFormed g) : (inst.subst ctx).WellFormed g := by
  cases ctx with
  | none => exact hinst
  | some c =>
    unfold Inst.subst
    dsimp only
    split
    · exact hinst
    · exact (Ty.WellFormed.replace_parts (h c rfl)).2 inst hinst

/-- The context of a slot on a well-formed instantiation is well-formed. -/
theorem Context.WellFormed.slotContext {on : Option Inst} {ctx : Option Context}
    (hon : ∀ inst ∈ on, inst.WellFormed g) (h : ∀ c ∈ ctx, c.WellFormed g) :
    (DisplayNames.slotContext on ctx).WellFormed g := by
  refine .ofInst ?_ (by simp)
  cases on with
  | none => simp
  | some inst =>
    rintro _ ⟨rfl⟩
    exact (hon inst rfl).subst h

end DisplayNames
