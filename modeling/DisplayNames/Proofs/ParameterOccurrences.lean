import DisplayNames.Proofs.EnclosingTypes
import DisplayNames.Proofs.GraphInvariant

/-!
# Where type parameters come from

A type parameter has no owner; it is known by its position alone.  So what a substitution does to a
type depends on where the parameters in the type come from.  A parameter that a document mentions is
in scope, or it comes along with a nested aggregate: if nothing is written for the enclosing
aggregate, the nested one is taken inside it over its own parameters, whether or not these are in
scope.  A third source are types that name a parameter by its position, which a document may write
but need not.

## Main definitions

* `DisplayNames.Ty.parts` — a type and all types inside it.
* `DisplayNames.Graph.TakenInside` — an instantiation inside the enclosing aggregate over its own
  parameters.
* `DisplayNames.Ty.Sourced` — every parameter in a type is known or comes along with an
  instantiation.
* `DisplayNames.Document.UsesRawParam` — what is written as a type names a parameter by position.

## Main results

* `DisplayNames.Ty.Sourced.instantiate` — what an instantiation brings along.
* `DisplayNames.Document.resolve_sourced` — where the parameters in a resolved type come from.
-/

set_option relaxedAutoImplicit false
set_option autoImplicit false

namespace DisplayNames

/-! ## The parts of a type -/

mutual

/-- A type and all types inside it.  The enclosing levels of an instantiation count as types. -/
def Ty.parts : Ty → List Ty
  | .aggregate inst => Inst.parts inst
  | .array element rank vector => .array element rank vector :: Ty.parts element
  | .pointer referent => .pointer referent :: Ty.parts referent
  | .nullable underlying => .nullable underlying :: Ty.parts underlying
  | .byRef target out => .byRef target out :: Ty.parts target
  | .error parent space name args =>
    .error parent space name args ::
      ((match parent with | none => [] | some t => Ty.parts t)
        ++ match args with | none => [] | some ts => Ty.partsAll ts)
  | t => [t]

/-- An instantiation as a type, and all types inside it. -/
def Inst.parts : Inst → List Ty
  | .mk decl args outer =>
    .aggregate (.mk decl args outer) ::
      ((match outer with | none => [] | some inst => Inst.parts inst) ++ Ty.partsAll args)

/-- Several types and all types inside them. -/
def Ty.partsAll : List Ty → List Ty
  | [] => []
  | t :: rest => Ty.parts t ++ Ty.partsAll rest

end

/-- The types directly inside a type. -/
def Ty.children : Ty → List Ty
  | .aggregate inst => inst.outer.toList.map .aggregate ++ inst.args
  | .array element _ _ => [element]
  | .pointer referent => [referent]
  | .nullable underlying => [underlying]
  | .byRef target _ => [target]
  | .error parent _ _ args => parent.toList ++ args.getD []
  | _ => []

/-- The parts of several types are those of each of them. -/
lemma Ty.partsAll_eq_flatMap (ts : List Ty) : Ty.partsAll ts = ts.flatMap Ty.parts := by
  induction ts with
  | nil => rfl
  | cons t rest ih => rw [partsAll, ih, List.flatMap_cons]

/-- The parts of a type are the type itself and the parts of the types directly inside it. -/
lemma Ty.parts_eq (t : Ty) : t.parts = t :: t.children.flatMap Ty.parts := by
  cases t with
  | aggregate inst =>
    obtain ⟨decl, args, outer⟩ := inst
    cases outer <;>
      simp [parts, Inst.parts, children, Inst.outer, Inst.args, partsAll_eq_flatMap]
  | error parent space name args =>
    cases parent <;> cases args <;> simp [parts, children, partsAll_eq_flatMap]
  | _ => simp [parts, children]

/-- What is inside a child of a type is inside the type. -/
lemma Ty.mem_parts_of_child {t u p : Ty} (hu : u ∈ t.children) (hp : p ∈ u.parts) :
    p ∈ t.parts := by
  rw [parts_eq]
  exact List.mem_cons_of_mem _ (List.mem_flatMap.2 ⟨u, hu, hp⟩)

/-- Directly inside an instantiation are the enclosing one and the arguments. -/
lemma Ty.mem_children_aggregate {inst : Inst} {u : Ty} :
    u ∈ (Ty.aggregate inst).children ↔
      (∃ outer ∈ inst.outer, .aggregate outer = u) ∨ u ∈ inst.args := by
  simp [children]

/-- Every type is one of its parts. -/
lemma Ty.self_mem_parts (t : Ty) : t ∈ t.parts := by
  rw [parts_eq]
  exact List.mem_cons_self

/-- A part of a type other than the type itself is inside a child. -/
lemma Ty.exists_child_of_mem_parts {t p : Ty} (hp : p ∈ t.parts) (hne : p ≠ t) :
    ∃ u ∈ t.children, p ∈ u.parts := by
  rw [parts_eq, List.mem_cons, List.mem_flatMap] at hp
  exact hp.resolve_left hne

/-- Induction over types, with the hypotheses for the types directly inside.

**Proof sketch.** The enclosing instantiation counts as a type directly inside, so the induction
goes over types and instantiations together, and an instantiation stands for the type that it is. -/
lemma Ty.induction_children {P : Ty → Prop} (h : ∀ t : Ty, (∀ u ∈ t.children, P u) → P t)
    (t : Ty) : P t := by
  have key : (∀ t, P t) ∧ ∀ inst, P (.aggregate inst) := by
    apply Ty.induction_parts
    case error =>
      intro parent space name args hp has
      refine h _ fun u hu => ?_
      rcases List.mem_append.1 hu with hu | hu
      · exact hp u (Option.mem_toList.1 hu)
      · cases args with
        | none => cases hu
        | some ts => exact has ts rfl u hu
    case inst =>
      intro decl args outer has ho
      refine h _ fun u hu => ?_
      rcases mem_children_aggregate.1 hu with ⟨i, hi, rfl⟩ | hu
      · exact ho i hi
      · exact has u hu
    case aggregate => exact fun inst hinst => hinst
    case array | pointer | nullable | byRef => intros; exact h _ (by simpa [children])
    all_goals intros; exact h _ (by simp [children])
  exact key.1 t

/-- The parts of a part of a type are parts of the type. -/
lemma Ty.mem_parts_trans {t u p : Ty} (hu : u ∈ t.parts) (hp : p ∈ u.parts) : p ∈ t.parts := by
  induction t using Ty.induction_children with
  | h t ih =>
    by_cases heq : u = t
    · exact heq ▸ hp
    · obtain ⟨c, hc, hu⟩ := exists_child_of_mem_parts hu heq
      exact mem_parts_of_child hc (ih c hc hu)

/-- Inside a parameter there is nothing else. -/
@[simp] lemma Ty.parts_param (index : Ordinal) (ofMethod : Bool) (name : Option String) :
    (Ty.param index ofMethod name).parts = [.param index ofMethod name] := rfl

/-! ## Instantiations that bring parameters along -/

/-- An instantiation lies inside the enclosing aggregate over that aggregate's own parameters, as
it does if nothing is written for the enclosing aggregate. -/
def Graph.TakenInside (g : Graph) (inst : Inst) (outer : SymId) : Prop :=
  g.outerAggregate? inst.decl = some outer ∧ inst.outer = g.thisInst? outer

/-- A parameter comes along with a type: it is one of an enclosing aggregate that an instantiation
in the type is taken inside of. -/
def Ty.Brings (g : Graph) (t p : Ty) : Prop :=
  ∃ inst outer, .aggregate inst ∈ t.parts ∧ g.TakenInside inst outer ∧ p ∈ g.typeVarsAll outer

/-- Every parameter in a type is a known one or comes along with the type. -/
def Ty.Sourced (g : Graph) (known : Ty → Prop) (t : Ty) : Prop :=
  ∀ index ofMethod name, .param index ofMethod name ∈ t.parts →
    known (.param index ofMethod name) ∨ t.Brings g (.param index ofMethod name)

/-- The parameters in an aggregate over its own parameters are the parameters of all levels.

**Proof sketch.** Induction on the levels from the innermost one.  Inside the aggregate over its
own parameters there are the arguments of the level, which are its parameters, and the aggregate
around it. -/
lemma Graph.Nested.mem_typeVarsAll_of_parts {g : Graph} (h : g.Nested) {id : SymId} {inst : Inst}
    (hthis : g.thisInst? id = some inst) {index : Ordinal} {ofMethod : Bool} {name : Option String}
    (hp : .param index ofMethod name ∈ (Ty.aggregate inst).parts) :
    .param index ofMethod name ∈ g.typeVarsAll id := by
  have hlevels (levels : List (SymId × Aggregate))
      (hnamed : ∀ level ∈ levels, ∀ t ∈ level.2.typeVars, t.NamedParam) (inst : Inst)
      (hinst : instOfLevels levels = some inst)
      (hp : .param index ofMethod name ∈ (Ty.aggregate inst).parts) :
      ∃ level ∈ levels, .param index ofMethod name ∈ level.2.typeVars := by
    induction levels generalizing inst with
    | nil => simp [instOfLevels] at hinst
    | cons level outer ih =>
      rw [instOfLevels, Option.some.injEq] at hinst
      subst hinst
      obtain ⟨u, hu, hp⟩ := Ty.exists_child_of_mem_parts hp (by simp)
      rcases Ty.mem_children_aggregate.1 hu with ⟨i, hi, rfl⟩ | hu
      · obtain ⟨l, hl, hmem⟩ :=
          ih (fun l hl => hnamed l (List.mem_cons_of_mem _ hl)) i hi hp
        exact ⟨l, List.mem_cons_of_mem _ hl, hmem⟩
      · obtain ⟨i, m, n, rfl⟩ := hnamed level List.mem_cons_self u hu
        rw [Ty.parts_param, List.mem_singleton] at hp
        exact ⟨level, List.mem_cons_self, hp ▸ hu⟩
  have hnamed : ∀ level ∈ g.levels id, ∀ t ∈ level.2.typeVars, t.NamedParam :=
    fun level hlevel t ht => h.typeVarsAll_named id t
      (List.mem_flatMap.2 ⟨level, List.mem_reverse.2 hlevel, ht⟩)
  obtain ⟨level, hlevel, hmem⟩ := hlevels _ hnamed inst hthis hp
  exact List.mem_flatMap.2 ⟨level, List.mem_reverse.2 hlevel, hmem⟩

section

variable {g : Graph} {known : Ty → Prop}

/-- What comes along with a child of a type comes along with the type. -/
lemma Ty.Brings.of_child {t u p : Ty} (hu : u ∈ t.children) (h : u.Brings g p) :
    t.Brings g p := by
  obtain ⟨inst, outer, hinst, htaken, hmem⟩ := h
  exact ⟨inst, outer, mem_parts_of_child hu hinst, htaken, hmem⟩

/-- A parameter in a sourced child of a type is known or comes along with the type. -/
lemma Ty.Sourced.in_child {t u : Ty} (h : u.Sourced g known) (hu : u ∈ t.children)
    {index : Ordinal} {ofMethod : Bool} {name : Option String}
    (hp : .param index ofMethod name ∈ u.parts) :
    known (.param index ofMethod name) ∨ t.Brings g (.param index ofMethod name) :=
  (h index ofMethod name hp).imp_right (.of_child hu)

/-- A type that is no parameter has its parameters from the types directly inside it. -/
lemma Ty.Sourced.of_children {t : Ty} (ht : ∀ i m n, t ≠ .param i m n)
    (h : ∀ u ∈ t.children, u.Sourced g known) : t.Sourced g known := by
  intro i m n hp
  obtain ⟨u, hu, hp⟩ := exists_child_of_mem_parts hp (ht i m n).symm
  exact (h u hu).in_child hu hp

/-- A known parameter is sourced. -/
lemma Ty.Sourced.of_known {i : Ordinal} {m : Bool} {n : Option String}
    (h : known (.param i m n)) : (Ty.param i m n).Sourced g known := by
  intro i' m' n' hp
  rw [parts_param, List.mem_singleton] at hp
  exact .inl (hp ▸ h)

/-- **An instantiation brings along the parameters of the enclosing aggregate** if no enclosing
instantiation is given, and no others.

**Proof sketch.** A parameter in the instantiation is in one of its arguments or in the enclosing
instantiation.  That is the given one, or it was taken from the graph, and then its parameters are
those around the enclosing aggregate. -/
theorem Ty.Sourced.instantiate (hg : g.Nested) {id : SymId} {args : List Ty} {outer : Option Inst}
    (hargs : ∀ t ∈ args, t.Sourced g known)
    (houter : ∀ inst ∈ outer, (Ty.aggregate inst).Sourced g known) :
    (Ty.aggregate (g.instantiate id args outer)).Sourced g known := by
  intro i m n hp
  obtain ⟨u, hu, hp⟩ := exists_child_of_mem_parts hp (by simp)
  rcases mem_children_aggregate.1 hu with ⟨inst, hinst, rfl⟩ | hmem
  · -- the enclosing instantiation is the given one, or that of the enclosing aggregate
    rcases Option.or_eq_some_iff.1 hinst with hgiven | ⟨hnone, hinst⟩
    · exact (houter inst hgiven).in_child hu hp
    · obtain ⟨parent, hparent, hthis⟩ := Option.bind_eq_some_iff.1 hinst
      have htaken : g.TakenInside (g.instantiate id args outer) parent := by
        refine ⟨hparent, ?_⟩
        rw [Graph.instantiate, Inst.outer, hnone, Option.none_or, hparent, Option.bind_some]
      exact .inr ⟨_, parent, self_mem_parts _, htaken, hg.mem_typeVarsAll_of_parts hthis hp⟩
  · exact (hargs u hmem).in_child hu hp

end

/-! ## Types that are written by position -/

namespace Document

/-- The keys under which a type object of a form has other types. -/
def TypeForm.partKeys : TypeForm → List String
  | .named => ["outer"]
  | .error => ["parent"]
  | .param | .special => []
  | form => [form.key]

/-- A type object of a form has type arguments. -/
def TypeForm.takesArgs : TypeForm → Bool
  | .named | .error => true
  | _ => false

/-- What is written as a type is a parameter by its position, or has such a type inside it. -/
inductive UsesRawParam : Json → Prop
  | raw {fields : List (String × Json)} :
    TypeForm.of? fields = some .param → UsesRawParam (.obj fields)
  | part {fields : List (String × Json)} {form : TypeForm} {key : String} {value : Json} :
    TypeForm.of? fields = some form → key ∈ form.partKeys → Table.get? fields key = some value →
      UsesRawParam value → UsesRawParam (.obj fields)
  | arg {fields : List (String × Json)} {form : TypeForm} {items : List Json} {item : Json} :
    TypeForm.of? fields = some form → form.takesArgs = true →
      Table.get? fields "args" = some (.arr items) → item ∈ items →
        UsesRawParam item → UsesRawParam (.obj fields)

/-! ## Resolved types -/

section

variable {names : Names} (h : names.Sound) {known : Ty → Prop}

/-- The types without structure have no parameters. -/
lemma specialType?_sourced {name : String} {t : Ty} (ht : specialType? name = some t) :
    t.Sourced names.graph known := by
  unfold specialType? at ht
  split at ht <;> simp only [Option.some.injEq, reduceCtorEq] at ht <;> subst ht <;>
    exact .of_children (by simp) (by simp [Ty.children])

include h

/-- A type object other than a parameter has its parameters from its parts.

**Proof sketch.** A case for each form.  The parameters of what is put together are those of the
types directly inside, which come from the parts; an instantiation may bring along the parameters
of the aggregates around its declaration. -/
lemma assemble_sourced {fields : List (String × Json)}
    {child : String → Option (Except DocumentError Ty)} {args : Except DocumentError (List Ty)}
    (hform : TypeForm.of? fields ≠ some .param)
    (hchild : ∀ form, TypeForm.of? fields = some form → ∀ key ∈ form.partKeys, ∀ t,
      child key = some (.ok t) → t.Sourced names.graph known)
    (hargs : ∀ form, TypeForm.of? fields = some form → form.takesArgs = true → ∀ ts,
      args = .ok ts → ∀ t ∈ ts, t.Sourced names.graph known)
    {t : Ty} (ht : assemble names fields child args = .ok t) : t.Sourced names.graph known := by
  obtain ⟨form, hof, hassembles⟩ := assembles_of_assemble ht
  have hpart (key : String) (hkey : key ∈ form.partKeys) (u : Ty) (hu : child key = some (.ok u)) :
      u.Sourced names.graph known := hchild form hof key hkey u hu
  have hitems (htakes : form.takesArgs = true) (ts : List Ty) (hts : args = .ok ts) :
      ∀ u ∈ ts, u.Sourced names.graph known := hargs form hof htakes ts hts
  cases hassembles with
  | outermost _ hts _ => exact .instantiate h.nested (hitems rfl _ hts) (by simp)
  | inside _ hts houter =>
    have hinside := hpart "outer" List.mem_cons_self _ houter
    exact .instantiate h.nested (hitems rfl _ hts) (by simpa using hinside)
  | array _ hinner | pointer hinner | nullable hinner | ref hinner | out hinner =>
    have hinside := hpart _ List.mem_cons_self _ hinner
    exact .of_children (by simp) (by simpa [Ty.children] using hinside)
  | param _ => exact absurd hof hform
  | unresolved _ => exact .of_children (by simp) (by simp [Ty.children])
  | errorInType _ hts hparent =>
    have hinside := hpart "parent" List.mem_cons_self _ hparent
    exact .of_children (by simp) (by simpa [Ty.children] using ⟨hinside, hitems rfl _ hts⟩)
  | errorInSpace _ hts _ _ =>
    exact .of_children (by simp) (by simpa [Ty.children] using hitems rfl _ hts)
  | special hspecial => exact specialType?_sourced hspecial

variable {scope : Scope} (hscope : ∀ e ∈ scope, e.2.Sourced names.graph known)
include hscope

/-- A type that is written as a name is a parameter in scope, or brings its parameters along. -/
lemma resolveName_sourced {name : String} {t : Ty}
    (ht : resolveName names scope name = .ok t) : t.Sourced names.graph known := by
  rcases resolveName_eq_ok_or ht with ⟨e, he, rfl⟩ | ⟨id, _, rfl⟩
  · exact hscope e he
  · exact .instantiate h.nested (by simp) (by simp)

/-- The same for types of all forms and for lists of types. -/
lemma resolve_sourced_parts :
    (∀ json, ¬ UsesRawParam json → ∀ t, resolve names scope json = .ok t →
      t.Sourced names.graph known) ∧
    ∀ items, (∀ item ∈ items, ¬ UsesRawParam item) → ∀ ts,
      resolveAll names scope items = .ok ts → ∀ t ∈ ts, t.Sourced names.graph known := by
  obtain ⟨htype, _, hlist, _⟩ := resolve_induction (W := fun json => ¬ UsesRawParam json)
    (fun name t => resolveName_sourced h hscope) fun fields child args t hraw hchild hargs => by
      refine assemble_sourced h (fun hparam => hraw (.raw hparam)) ?_ ?_
      · intro form hform key hkey
        exact hchild key fun value hvalue huses => hraw (.part hform hkey hvalue huses)
      · intro form hform htakes
        exact hargs fun items hitems item hitem huses =>
          hraw (.arg hform htakes hitems hitem huses)
  exact ⟨htype, hlist⟩

/-- **The parameters in a type that is written without positions** are in scope or come along with
the type. -/
theorem resolve_sourced {json : Json} (hraw : ¬ UsesRawParam json) {t : Ty}
    (ht : resolve names scope json = .ok t) : t.Sourced names.graph known :=
  (resolve_sourced_parts h hscope).1 json hraw t ht

end

end Document

end DisplayNames
