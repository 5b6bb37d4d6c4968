import DisplayNames.Ty.Subst
import Mathlib.Tactic.Lemma

/-!
# Traversals of types

One induction principle over types and instantiations, and one traversal that changes nothing but
parameters and ranks.  The plain replacement of parameters and the uniform spelling of ordinals are
both instances of it, so that a single fusion law covers how they interact.

Equality of types disregards the spelling of ordinals, so it is equality of the uniformly spelled
types.

## Main definitions

* `DisplayNames.Ty.bind`, `DisplayNames.Inst.bind` — the traversal.
* `DisplayNames.Ty.rebuild` — the plain replacement of all covered parameters.
* `DisplayNames.Ty.spelled`, `DisplayNames.Context.spelled` — every ordinal spelled as a number.
* `DisplayNames.Context.effective` — the context in effect, which may be absent.

## Main results

* `DisplayNames.Ty.induction_parts` — induction over types and instantiations.
* `DisplayNames.Ty.bind_bind` — two traversals in a row are one.
* `DisplayNames.Ty.same_iff_spelled` — types are equal if they agree up to the spelling of ordinals.
* `DisplayNames.Ty.spelled_subst` — substitution is the plain replacement, up to spelling.
-/

set_option relaxedAutoImplicit false
set_option autoImplicit false

namespace DisplayNames

/-! ## Induction -/

/-- Induction over types and instantiations, with the hypotheses for the types inside a type given
by membership.

**Proof sketch.** Lists and optional types inside a type are families of their own in the
recursor.  Their motives say what holds of all members; the motive of types also records that of an
instantiation below it. -/
theorem Ty.induction_parts {P : Ty → Prop} {Q : Inst → Prop}
    (aggregate : ∀ inst, Q inst → P (.aggregate inst))
    (param : ∀ index ofMethod name, P (.param index ofMethod name))
    (array : ∀ element rank vector, P element → P (.array element rank vector))
    (pointer : ∀ referent, P referent → P (.pointer referent))
    (nullable : ∀ underlying, P underlying → P (.nullable underlying))
    (byRef : ∀ target out, P target → P (.byRef target out))
    (error : ∀ parent space name args, (∀ t, parent = some t → P t) →
      (∀ ts, args = some ts → ∀ t ∈ ts, P t) → P (.error parent space name args))
    (null : P .null) (void : P .void) (boundLambda : P .boundLambda)
    (unboundLambda : P .unboundLambda) (methodGroup : P .methodGroup)
    (argumentList : P .argumentList) (placeholder : P .placeholder)
    (unknown : ∀ tag, P (.unknown tag))
    (inst : ∀ decl args outer, (∀ t ∈ args, P t) → (∀ i, outer = some i → Q i) →
      Q (.mk decl args outer)) :
    (∀ t, P t) ∧ ∀ i, Q i := by
  -- the first motive also records the second one below `aggregate`
  have key : ∀ t : Ty, P t ∧ ∀ i, t = .aggregate i → Q i := fun t =>
    @Ty.rec (fun t => P t ∧ ∀ i, t = .aggregate i → Q i) Q
      (fun p => ∀ t, p = some t → P t) (fun as => ∀ ts, as = some ts → ∀ t ∈ ts, P t)
      (fun ts => ∀ t ∈ ts, P t) (fun o => ∀ i, o = some i → Q i)
      (fun i h => ⟨aggregate i h, by simpa using h⟩)
      (fun i m n => ⟨param i m n, by simp⟩)
      (fun e r v h => ⟨array e r v h.1, by simp⟩)
      (fun t h => ⟨pointer t h.1, by simp⟩)
      (fun t h => ⟨nullable t h.1, by simp⟩)
      (fun t o h => ⟨byRef t o h.1, by simp⟩)
      (fun p s n as hp has => ⟨error p s n as hp has, by simp⟩)
      ⟨null, by simp⟩ ⟨void, by simp⟩ ⟨boundLambda, by simp⟩ ⟨unboundLambda, by simp⟩
      ⟨methodGroup, by simp⟩ ⟨argumentList, by simp⟩ ⟨placeholder, by simp⟩
      (fun tag => ⟨unknown tag, by simp⟩)
      inst (by simp) (fun t h => by simpa using h.1) (by simp) (fun ts h => by simpa using h)
      (by simp) (fun t ts h hs => by simpa using ⟨h.1, hs⟩) (by simp) (fun i h => by simpa using h)
      t
  exact ⟨fun t => (key t).1, fun i => (key (.aggregate i)).2 i rfl⟩

/-! ## The traversal -/

mutual

/-- Puts a type in the place of every parameter and rewrites every rank; all else is kept. -/
def Ty.bind (param : Ordinal → Bool → Option String → Ty) (rank : Ordinal → Ordinal) : Ty → Ty
  | .aggregate inst => .aggregate (Inst.bind param rank inst)
  | .param index ofMethod name => param index ofMethod name
  | .array element r vector => .array (Ty.bind param rank element) (rank r) vector
  | .pointer referent => .pointer (Ty.bind param rank referent)
  | .nullable underlying => .nullable (Ty.bind param rank underlying)
  | .byRef target out => .byRef (Ty.bind param rank target) out
  | .error parent space name args =>
    .error (match parent with | none => none | some t => some (Ty.bind param rank t)) space name
      (match args with | none => none | some ts => some (Ty.bindAll param rank ts))
  | .null => .null
  | .void => .void
  | .boundLambda => .boundLambda
  | .unboundLambda => .unboundLambda
  | .methodGroup => .methodGroup
  | .argumentList => .argumentList
  | .placeholder => .placeholder
  | .unknown tag => .unknown tag

/-- The same for an instantiation, level by level. -/
def Inst.bind (param : Ordinal → Bool → Option String → Ty) (rank : Ordinal → Ordinal) :
    Inst → Inst
  | .mk decl args outer =>
    .mk decl (Ty.bindAll param rank args)
      (match outer with | none => none | some inst => some (Inst.bind param rank inst))

/-- The same for several types. -/
def Ty.bindAll (param : Ordinal → Bool → Option String → Ty) (rank : Ordinal → Ordinal) :
    List Ty → List Ty
  | [] => []
  | t :: rest => Ty.bind param rank t :: Ty.bindAll param rank rest

end

section

variable (param : Ordinal → Bool → Option String → Ty) (rank : Ordinal → Ordinal)

/-- Several types are traversed one by one. -/
@[simp] lemma Ty.bindAll_eq_map (ts : List Ty) :
    Ty.bindAll param rank ts = ts.map (Ty.bind param rank) := by
  induction ts with
  | nil => rfl
  | cons t ts ih => simp [Ty.bindAll, ih]

/-- In an unresolved type the parent and the arguments are traversed. -/
@[simp] lemma Ty.bind_error (parent : Option Ty) (space : Option SymId) (name : Option String)
    (args : Option (List Ty)) :
    (Ty.error parent space name args).bind param rank =
      .error (parent.map (Ty.bind param rank)) space name
        (args.map (List.map (Ty.bind param rank))) := by
  cases parent <;> cases args <;> simp [Ty.bind]

/-- In an instantiation the arguments of all levels are traversed. -/
@[simp] lemma Inst.bind_mk (decl : SymId) (args : List Ty) (outer : Option Inst) :
    (Inst.mk decl args outer).bind param rank =
      .mk decl (args.map (Ty.bind param rank)) (outer.map (Inst.bind param rank)) := by
  cases outer <;> simp [Inst.bind]

end

/-- Two traversals in a row are one: the second goes through what the first has put in.

**Proof sketch.** Induction over types and instantiations.  Parameters are where the two functions
meet; all other forms are kept around what is inside. -/
theorem Ty.bind_bind (f g : Ordinal → Bool → Option String → Ty) (r s : Ordinal → Ordinal) :
    (∀ t : Ty, (t.bind g s).bind f r = t.bind (fun i m n => (g i m n).bind f r) (r ∘ s)) ∧
      ∀ inst : Inst, (inst.bind g s).bind f r =
        inst.bind (fun i m n => (g i m n).bind f r) (r ∘ s) := by
  apply Ty.induction_parts
  case error =>
    intro parent space name args hp has
    have hparent : (parent.map (Ty.bind g s)).map (Ty.bind f r) =
        parent.map (Ty.bind (fun i m n => (g i m n).bind f r) (r ∘ s)) := by
      cases parent with
      | none => rfl
      | some t => simp [hp t rfl]
    have hargs : (args.map (List.map (Ty.bind g s))).map (List.map (Ty.bind f r)) =
        args.map (List.map (Ty.bind (fun i m n => (g i m n).bind f r) (r ∘ s))) := by
      cases args with
      | none => rfl
      | some ts => simpa using has ts rfl
    rw [bind_error, bind_error, bind_error, hparent, hargs]
  case inst =>
    intro decl args outer has ho
    have hargs : (args.map (Ty.bind g s)).map (Ty.bind f r) =
        args.map (Ty.bind (fun i m n => (g i m n).bind f r) (r ∘ s)) := by
      simpa using has
    have houter : (outer.map (Inst.bind g s)).map (Inst.bind f r) =
        outer.map (Inst.bind (fun i m n => (g i m n).bind f r) (r ∘ s)) := by
      cases outer with
      | none => rfl
      | some o => simp [ho o rfl]
    rw [Inst.bind_mk, Inst.bind_mk, Inst.bind_mk, hargs, houter]
  all_goals intros; simp_all [bind]

/-- A traversal that puts every parameter back and keeps every rank changes nothing. -/
lemma Ty.bind_param :
    (∀ t : Ty, t.bind .param id = t) ∧ ∀ inst : Inst, inst.bind .param id = inst := by
  apply Ty.induction_parts
  case error =>
    intro parent space name args hp has
    have hparent : parent.map (Ty.bind .param id) = parent := by
      cases parent with
      | none => rfl
      | some t => simp [hp t rfl]
    have hargs : args.map (List.map (Ty.bind .param id)) = args := by
      cases args with
      | none => rfl
      | some ts => simp [List.map_congr_left (has ts rfl)]
    rw [bind_error, hparent, hargs]
  case inst =>
    intro decl args outer has ho
    have houter : outer.map (Inst.bind .param id) = outer := by
      cases outer with
      | none => rfl
      | some o => simp [ho o rfl]
    rw [Inst.bind_mk, houter, List.map_congr_left has, List.map_id']
  all_goals intros; simp_all [bind]

/-! ## Spelling -/

/-- The number that is meant. -/
def Ordinal.spelled (ordinal : Ordinal) : Ordinal := .number ordinal.value

/-- The type with every ordinal spelled as a number. -/
def Ty.spelled (t : Ty) : Ty := t.bind (fun i m n => .param i.spelled m n) Ordinal.spelled

/-- The instantiation with every ordinal spelled as a number. -/
def Inst.spelled (inst : Inst) : Inst :=
  inst.bind (fun i m n => .param i.spelled m n) Ordinal.spelled

@[simp] lemma Ty.spelled_aggregate (inst : Inst) :
    (Ty.aggregate inst).spelled = .aggregate inst.spelled := rfl

@[simp] lemma Ty.spelled_param (i : Ordinal) (m : Bool) (n : Option String) :
    (Ty.param i m n).spelled = .param i.spelled m n := rfl

@[simp] lemma Ty.spelled_array (element : Ty) (rank : Ordinal) (vector : Bool) :
    (Ty.array element rank vector).spelled = .array element.spelled rank.spelled vector := rfl

@[simp] lemma Ty.spelled_pointer (referent : Ty) :
    (Ty.pointer referent).spelled = .pointer referent.spelled := rfl

@[simp] lemma Ty.spelled_nullable (underlying : Ty) :
    (Ty.nullable underlying).spelled = .nullable underlying.spelled := rfl

@[simp] lemma Ty.spelled_byRef (target : Ty) (out : Bool) :
    (Ty.byRef target out).spelled = .byRef target.spelled out := rfl

/-- In an unresolved type the parent and the arguments are spelled. -/
@[simp] lemma Ty.spelled_error (parent : Option Ty) (space : Option SymId) (name : Option String)
    (args : Option (List Ty)) :
    (Ty.error parent space name args).spelled =
      .error (parent.map Ty.spelled) space name (args.map (List.map Ty.spelled)) :=
  Ty.bind_error ..

/-- In an instantiation the arguments of all levels are spelled. -/
@[simp] lemma Inst.spelled_mk (decl : SymId) (args : List Ty) (outer : Option Inst) :
    (Inst.mk decl args outer).spelled =
      .mk decl (args.map Ty.spelled) (outer.map Inst.spelled) :=
  Inst.bind_mk ..

/-- Two ordinals are spelled alike exactly if they mean the same number. -/
lemma Ordinal.spelled_inj {a b : Ordinal} : a.spelled = b.spelled ↔ a.value = b.value := by
  simp [spelled]

/-- Lists are equal element by element if the types in one of them are recognised by equality. -/
lemma Ty.sameAll_iff_of_forall {ts : List Ty}
    (h : ∀ t ∈ ts, ∀ u : Ty, t.same u = true ↔ t.spelled = u.spelled) (us : List Ty) :
    Ty.sameAll ts us = true ↔ ts.map Ty.spelled = us.map Ty.spelled := by
  induction ts generalizing us with
  | nil => cases us <;> simp [sameAll]
  | cons t ts ih =>
    cases us with
    | nil => simp [sameAll]
    | cons u us =>
      have ht := h t (by simp) u
      have hts := ih (fun t ht => h t (by simp [ht])) us
      simp [sameAll, ht, hts]

/-- **Equality of types** is equality up to the spelling of ordinals, and so is equality of
instantiations.

**Proof sketch.** Induction over types and instantiations, with a case for the other type.  Two
types of one form are equal if their parts are; a parameter and a rank are compared by their
values, which is what the spelling keeps of them. -/
theorem Ty.same_iff_spelled :
    (∀ t u : Ty, t.same u = true ↔ t.spelled = u.spelled) ∧
      ∀ i j : Inst, Ty.sameInst i j = true ↔ i.spelled = j.spelled := by
  apply Ty.induction_parts
  case error =>
    intro parent space name args hp has u
    cases u with
    | error parent' space' name' args' =>
      have hargs : ∀ ts ts', args = some ts →
          (sameAll ts ts' = true ↔ ts.map spelled = ts'.map spelled) :=
        fun ts ts' h => sameAll_iff_of_forall (has ts h) ts'
      cases parent <;> cases parent' <;> cases args <;> cases args' <;>
        simp [same, spelled_error, and_assoc, hp, hargs]
    | _ => simp [same, spelled, bind]
  case inst =>
    intro decl args outer has ho j
    obtain ⟨decl', args', outer'⟩ := j
    have hargs := sameAll_iff_of_forall has args'
    cases outer <;> cases outer' <;> simp [sameInst, Inst.spelled_mk, and_assoc, ho, hargs]
  case aggregate =>
    intro inst h u
    cases u with
    | aggregate inst' => simp [same, h]
    | _ => simp [same, spelled, bind]
  case param =>
    intro i m n u
    cases u <;> simp [same, spelled, bind, Ordinal.spelled_inj, and_assoc]
  case array =>
    intro e r v h u
    cases u with
    | array e' r' v' => simp [same, h, Ordinal.spelled_inj, and_assoc]
    | _ => simp [same, spelled, bind]
  case pointer =>
    intro t h u
    cases u with
    | pointer t' => simp [same, h]
    | _ => simp [same, spelled, bind]
  case nullable =>
    intro t h u
    cases u with
    | nullable t' => simp [same, h]
    | _ => simp [same, spelled, bind]
  case byRef =>
    intro t o h u
    cases u with
    | byRef t' o' => simp [same, h]
    | _ => simp [same, spelled, bind]
  all_goals
    intros
    rename_i u
    cases u <;> simp [same, spelled, bind]

/-! ## The plain replacement -/

/-- The type with every covered parameter replaced by its entry; all else is kept as written. -/
def Ty.rebuild (ctx : Context) (t : Ty) : Ty :=
  t.bind (fun i m n => (ctx.find? i m).getD (.param i m n)) id

/-- The instantiation with every covered parameter replaced by its entry. -/
def Inst.rebuild (ctx : Context) (inst : Inst) : Inst :=
  inst.bind (fun i m n => (ctx.find? i m).getD (.param i m n)) id

section

variable (ctx : Context)

@[simp] lemma Ty.rebuild_aggregate (inst : Inst) :
    (Ty.aggregate inst).rebuild ctx = .aggregate (inst.rebuild ctx) := rfl

@[simp] lemma Ty.rebuild_param (i : Ordinal) (m : Bool) (n : Option String) :
    (Ty.param i m n).rebuild ctx = (ctx.find? i m).getD (.param i m n) := rfl

@[simp] lemma Ty.rebuild_array (element : Ty) (rank : Ordinal) (vector : Bool) :
    (Ty.array element rank vector).rebuild ctx = .array (element.rebuild ctx) rank vector := rfl

@[simp] lemma Ty.rebuild_pointer (referent : Ty) :
    (Ty.pointer referent).rebuild ctx = .pointer (referent.rebuild ctx) := rfl

@[simp] lemma Ty.rebuild_nullable (underlying : Ty) :
    (Ty.nullable underlying).rebuild ctx = .nullable (underlying.rebuild ctx) := rfl

@[simp] lemma Ty.rebuild_byRef (target : Ty) (out : Bool) :
    (Ty.byRef target out).rebuild ctx = .byRef (target.rebuild ctx) out := rfl

@[simp] lemma Ty.rebuild_error (parent : Option Ty) (space : Option SymId)
    (name : Option String) (args : Option (List Ty)) :
    (Ty.error parent space name args).rebuild ctx =
      .error (parent.map (Ty.rebuild ctx)) space name (args.map (List.map (Ty.rebuild ctx))) :=
  Ty.bind_error ..

@[simp] lemma Inst.rebuild_mk (decl : SymId) (args : List Ty) (outer : Option Inst) :
    (Inst.mk decl args outer).rebuild ctx =
      .mk decl (args.map (Ty.rebuild ctx)) (outer.map (Inst.rebuild ctx)) :=
  Inst.bind_mk ..

end

/-- The context with every ordinal spelled as a number. -/
def Context.spelled (ctx : Context) : Context :=
  ⟨ctx.ofType.map Ty.spelled, ctx.ofMethod.map Ty.spelled⟩

/-- The entry for a position, spelled as numbers, is that of the spelled context. -/
lemma Context.find?_spelled (ctx : Context) (i : Ordinal) (m : Bool) :
    ctx.spelled.find? i.spelled m = (ctx.find? i m).map Ty.spelled := by
  have hi : i.spelled.value = i.value := rfl
  unfold find?
  rw [hi]
  by_cases h : i.value < 0
  · simp [h]
  · cases m <;> simp [h, spelled]

/-- A context that covers nothing replaces nothing. -/
lemma Context.find?_of_isNop {ctx : Context} (h : ctx.isNop = true) (i : Ordinal) (m : Bool) :
    ctx.find? i m = none := by
  simp only [isNop, Bool.and_eq_true, List.isEmpty_iff] at h
  unfold find?
  cases m <;> simp [h.1, h.2]

/-- A context covers nothing exactly if its spelled form does. -/
lemma Context.isNop_spelled (ctx : Context) : ctx.spelled.isNop = ctx.isNop := by
  simp [isNop, spelled]

/-- The plain replacement under a context that covers nothing changes nothing. -/
lemma Ty.rebuild_of_isNop {ctx : Context} (h : ctx.isNop = true) (t : Ty) :
    t.rebuild ctx = t := by
  have hparam : (fun i m n => (ctx.find? i m).getD (.param i m n)) = Ty.param := by
    funext i m n
    rw [Context.find?_of_isNop h, Option.getD_none]
  rw [rebuild, hparam, Ty.bind_param.1]

/-- Spelling after the plain replacement is the plain replacement in the spelled type, under the
spelled context. -/
lemma Ty.spelled_rebuild (ctx : Context) (t : Ty) :
    (t.rebuild ctx).spelled = t.spelled.rebuild ctx.spelled := by
  unfold rebuild spelled
  rw [(Ty.bind_bind _ _ _ _).1, (Ty.bind_bind _ _ _ _).1]
  congr 1
  funext i m n
  rw [bind, Context.find?_spelled]
  cases ctx.find? i m <;> rfl

/-- Whether a result is given back or the original in its stead, it is spelled alike. -/
lemma Ty.spelled_ite_same (t u : Ty) : (if t.same u then u else t).spelled = t.spelled := by
  by_cases h : t.same u = true
  · rw [if_pos h, (same_iff_spelled.1 t u).1 h]
  · rw [if_neg h]

/-- The same for instantiations. -/
lemma Inst.spelled_ite_same (i j : Inst) :
    (if Ty.sameInst i j then j else i).spelled = i.spelled := by
  by_cases h : Ty.sameInst i j = true
  · rw [if_pos h, (Ty.same_iff_spelled.2 i j).1 h]
  · rw [if_neg h]

/-- In an unresolved type the parent and the arguments are replaced. -/
lemma Ty.replace_error (ctx : Context) (parent : Option Ty) (space : Option SymId)
    (name : Option String) (args : Option (List Ty)) :
    (Ty.error parent space name args).replace ctx =
      let replaced := Ty.error (parent.map (Ty.replace ctx)) space name
        (args.map (List.map (Ty.replace ctx)))
      if replaced.same (.error parent space name args) then .error parent space name args
      else replaced := by
  cases parent <;> cases args <;> simp [replace, replaceAll_eq_map]

/-- In an instantiation the arguments of all levels are replaced. -/
lemma Inst.replace_mk (ctx : Context) (decl : SymId) (args : List Ty) (outer : Option Inst) :
    (Inst.mk decl args outer).replace ctx =
      let replaced := Inst.mk decl (args.map (Ty.replace ctx)) (outer.map (Inst.replace ctx))
      if Ty.sameInst replaced (.mk decl args outer) then .mk decl args outer else replaced := by
  cases outer <;> simp [replace, Ty.replaceAll_eq_map]

/-- The replacement, which gives unchanged types back as they were, is the plain one up to the
spelling of ordinals.

**Proof sketch.** Induction over types and instantiations.  If the replacement gives a type back,
what it would have put together is equal to it and hence spelled like it. -/
lemma Ty.spelled_replace (ctx : Context) :
    (∀ t : Ty, (t.replace ctx).spelled = (t.rebuild ctx).spelled) ∧
      ∀ inst : Inst, (inst.replace ctx).spelled = (inst.rebuild ctx).spelled := by
  apply Ty.induction_parts
  case error =>
    intro parent space name args hp has
    have hparent : (parent.map (Ty.replace ctx)).map Ty.spelled =
        (parent.map (Ty.rebuild ctx)).map Ty.spelled := by
      cases parent with
      | none => rfl
      | some t => simp [hp t rfl]
    have hargs : (args.map (List.map (Ty.replace ctx))).map (List.map Ty.spelled) =
        (args.map (List.map (Ty.rebuild ctx))).map (List.map Ty.spelled) := by
      cases args with
      | none => rfl
      | some ts => simpa using has ts rfl
    rw [replace_error, spelled_ite_same, rebuild_error, spelled_error, spelled_error, hparent,
      hargs]
  case inst =>
    intro decl args outer has ho
    have hargs : (args.map (Ty.replace ctx)).map Ty.spelled =
        (args.map (Ty.rebuild ctx)).map Ty.spelled := by
      simpa using has
    have houter : (outer.map (Inst.replace ctx)).map Inst.spelled =
        (outer.map (Inst.rebuild ctx)).map Inst.spelled := by
      cases outer with
      | none => rfl
      | some o => simp [ho o rfl]
    rw [Inst.replace_mk, Inst.spelled_ite_same, Inst.rebuild_mk, Inst.spelled_mk, Inst.spelled_mk,
      hargs, houter]
  case aggregate | array | pointer | nullable | byRef =>
    intros
    simp_all [replace, spelled_ite_same]
  all_goals intros; rfl

/-- Under a context the parameters are replaced unless it covers nothing. -/
lemma Ty.subst_some (ctx : Context) (t : Ty) :
    t.subst (some ctx) = if ctx.isNop then t else t.replace ctx := rfl

/-- **Substitution** is the plain replacement, up to the spelling of ordinals. -/
theorem Ty.spelled_subst (ctx : Context) (t : Ty) :
    (t.subst (some ctx)).spelled = t.spelled.rebuild ctx.spelled := by
  rw [subst_some]
  by_cases h : ctx.isNop = true
  · rw [if_pos h, rebuild_of_isNop (by rw [Context.isNop_spelled, h])]
  · rw [if_neg h, (spelled_replace ctx).1, spelled_rebuild]

/-- An instantiation as a type is replaced as an instantiation. -/
lemma Ty.subst_aggregate (ctx : Option Context) (inst : Inst) :
    (Ty.aggregate inst).subst ctx = .aggregate (inst.subst ctx) := by
  cases ctx with
  | none => rfl
  | some c => simp only [Ty.subst, Inst.subst, Ty.replace]; split <;> rfl

/-- The context that is in effect; an absent one covers nothing. -/
def Context.effective (ctx : Option Context) : Context := ctx.getD ⟨[], []⟩

/-- Substitution is the plain replacement under the context that is in effect, up to spelling. -/
lemma Ty.spelled_subst_effective (ctx : Option Context) (t : Ty) :
    (t.subst ctx).spelled = (t.rebuild (Context.effective ctx)).spelled := by
  cases ctx with
  | none => exact congrArg spelled (rebuild_of_isNop rfl t).symm
  | some c => exact (spelled_subst c t).trans (spelled_rebuild c t).symm

/-- The same for instantiations. -/
lemma Inst.spelled_subst_effective (ctx : Option Context) (inst : Inst) :
    (inst.subst ctx).spelled = (inst.rebuild (Context.effective ctx)).spelled := by
  have h := Ty.spelled_subst_effective ctx (.aggregate inst)
  rw [Ty.subst_aggregate] at h
  exact Ty.aggregate.inj h

end DisplayNames
