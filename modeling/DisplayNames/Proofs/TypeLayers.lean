import DisplayNames.Proofs.ParameterOccurrences

/-!
# Types layer by layer

A type other than a parameter is a layer around the types directly inside it.  The plain replacement
keeps the layer and goes on with what is inside, and so does substitution, unless the replacement is
equal to the type; then the type is given back as it is.

## Main definitions

* `DisplayNames.Ty.IsParam` — the types without a layer.
* `DisplayNames.Ty.mapChildren` — a type with the types directly inside it replaced.

## Main results

* `DisplayNames.Ty.bind_congr` — what is put in matters for the parameters in a type alone.
* `DisplayNames.Ty.replace_eq_ite` — what substitution does with a layer.
* `DisplayNames.Ty.replace_congr` — substitution depends on the entries for these parameters alone.
* `DisplayNames.Ty.spelled_rebuild_of_part` — if a replacement is equal to a type, it is for all its
  parts.
* `DisplayNames.Ty.WellFormed.rebuild` — the plain replacement keeps types well-formed.
-/

set_option relaxedAutoImplicit false
set_option autoImplicit false

namespace DisplayNames

/-! ## Layers -/

/-- The type is a parameter. -/
def Ty.IsParam (t : Ty) : Prop := ∃ i m n, t = .param i m n

/-- The type with the types directly inside it replaced.  Enclosing instantiations are replaced as
instantiations. -/
def Ty.mapChildren (f : Ty → Ty) (k : Inst → Inst) : Ty → Ty
  | .aggregate (.mk decl args outer) => .aggregate (.mk decl (args.map f) (outer.map k))
  | .array element rank vector => .array (f element) rank vector
  | .pointer referent => .pointer (f referent)
  | .nullable underlying => .nullable (f underlying)
  | .byRef target out => .byRef (f target) out
  | .error parent space name args => .error (parent.map f) space name (args.map (List.map f))
  | t => t

/-- A type with nothing replaced is the same type. -/
lemma Ty.mapChildren_id (t : Ty) : t.mapChildren id id = t := by
  cases t with
  | aggregate inst =>
    obtain ⟨decl, args, outer⟩ := inst
    simp [mapChildren]
  | _ => simp [mapChildren]

/-- Types that are put together from the same types are the same.

**Proof sketch.** A case for each form of a type.  An enclosing instantiation counts as a type
inside, which determines it. -/
lemma Ty.mapChildren_congr {t : Ty} {f f' : Ty → Ty} {k k' : Inst → Inst}
    (hf : ∀ i, f (.aggregate i) = .aggregate (k i))
    (hf' : ∀ i, f' (.aggregate i) = .aggregate (k' i)) (h : ∀ u ∈ t.children, f u = f' u) :
    t.mapChildren f k = t.mapChildren f' k' := by
  cases t with
  | aggregate inst =>
    obtain ⟨decl, args, outer⟩ := inst
    have hargs : args.map f = args.map f' :=
      List.map_congr_left fun t ht => h t (mem_children_aggregate.2 (.inr ht))
    have houter : outer.map k = outer.map k' := by
      cases outer with
      | none => rfl
      | some i =>
        have hi := h (.aggregate i) (mem_children_aggregate.2 (.inl ⟨i, rfl, rfl⟩))
        rw [hf, hf'] at hi
        exact congrArg some (Ty.aggregate.inj hi)
    rw [mapChildren, mapChildren, hargs, houter]
  | error parent space name args =>
    have hparent : parent.map f = parent.map f' := by
      cases parent with
      | none => rfl
      | some t => exact congrArg some (h t (by simp [children]))
    have hargs : args.map (List.map f) = args.map (List.map f') := by
      cases args with
      | none => rfl
      | some ts =>
        exact congrArg some (List.map_congr_left fun t ht => h t (by simp [children, ht]))
    rw [mapChildren, mapChildren, hparent, hargs]
  | _ => simp_all [mapChildren, children]

/-- A traversal of a type other than a parameter goes on with the types directly inside it. -/
lemma Ty.children_bind {t : Ty} (ht : ¬ t.IsParam) (f : Ordinal → Bool → Option String → Ty)
    (r : Ordinal → Ordinal) : (t.bind f r).children = t.children.map (Ty.bind f r) := by
  cases t with
  | aggregate inst =>
    obtain ⟨decl, args, outer⟩ := inst
    cases outer <;> simp [bind, children, Inst.outer, Inst.args]
  | param i m n => exact absurd ⟨i, m, n, rfl⟩ ht
  | error parent space name args => cases parent <;> cases args <;> simp [children]
  | _ => rfl

/-- The types directly inside a spelled type are spelled. -/
lemma Ty.children_spelled (t : Ty) : t.spelled.children = t.children.map Ty.spelled := by
  by_cases hparam : t.IsParam
  · obtain ⟨i, m, n, rfl⟩ := hparam
    rfl
  · exact children_bind hparam _ _

/-- Putting types in the place of parameters goes on with the types directly inside a layer. -/
lemma Ty.bind_eq_mapChildren {t : Ty} (ht : ¬ t.IsParam)
    (f : Ordinal → Bool → Option String → Ty) :
    t.bind f id = t.mapChildren (Ty.bind f id) (Inst.bind f id) := by
  cases t with
  | aggregate inst =>
    obtain ⟨decl, args, outer⟩ := inst
    rw [bind, Inst.bind_mk, mapChildren]
  | param i m n => exact absurd ⟨i, m, n, rfl⟩ ht
  | error parent space name args => rw [bind_error, mapChildren]
  | _ => rfl

/-- **What is put in the place of parameters only matters for the parameters in the type.** -/
theorem Ty.bind_congr {f g : Ordinal → Bool → Option String → Ty} {t : Ty}
    (h : ∀ i m n, .param i m n ∈ t.parts → f i m n = g i m n) : t.bind f id = t.bind g id := by
  induction t using Ty.induction_children with
  | h t ih =>
    by_cases hparam : t.IsParam
    · obtain ⟨i, m, n, rfl⟩ := hparam
      exact h i m n (self_mem_parts _)
    · rw [bind_eq_mapChildren hparam, bind_eq_mapChildren hparam]
      refine mapChildren_congr (fun _ => rfl) (fun _ => rfl) fun u hu => ?_
      exact ih u hu fun i m n hp => h i m n (mem_parts_of_child hu hp)

section

variable {ctx : Context} {t : Ty} (ht : ¬ t.IsParam)
include ht

/-- The plain replacement in a type other than a parameter is that in the types directly inside. -/
lemma Ty.rebuild_eq_mapChildren :
    t.rebuild ctx = t.mapChildren (Ty.rebuild ctx) (Inst.rebuild ctx) :=
  bind_eq_mapChildren ht _

/-- What is directly inside the plain replacement. -/
lemma Ty.children_rebuild : (t.rebuild ctx).children = t.children.map (Ty.rebuild ctx) :=
  children_bind ht _ _

/-- If the plain replacement is equal to a type, so it is for the types directly inside. -/
lemma Ty.spelled_rebuild_of_child (h : (t.rebuild ctx).spelled = t.spelled) :
    ∀ u ∈ t.children, (u.rebuild ctx).spelled = u.spelled := by
  have hchildren := congrArg Ty.children h
  rw [children_spelled, children_spelled, children_rebuild ht, List.map_map] at hchildren
  exact List.map_inj_left.1 hchildren

omit ht in
/-- If the plain replacement is equal to a type, so it is for all types inside. -/
theorem Ty.spelled_rebuild_of_part (h : (t.rebuild ctx).spelled = t.spelled) :
    ∀ u ∈ t.parts, (u.rebuild ctx).spelled = u.spelled := by
  induction t using Ty.induction_children with
  | h t ih =>
    intro u hu
    by_cases heq : u = t
    · exact heq ▸ h
    · obtain ⟨c, hc, hu⟩ := exists_child_of_mem_parts hu heq
      have hparam : ¬ t.IsParam := by
        rintro ⟨i, m, n, rfl⟩
        cases hc
      exact ih c hc (spelled_rebuild_of_child hparam h c hc) u hu

/-- **Substitution gives a type back or goes on with the types directly inside it**, according to
whether the plain replacement is equal to the type.

**Proof sketch.** Substitution compares what it made of the parts with the parts, where the
statement compares the plain replacement with the type.  By `Ty.spelled_replace` both are spelled
alike, and equality only depends on the spelling. -/
theorem Ty.replace_eq_ite : t.replace ctx =
    if (t.rebuild ctx).same t then t else t.mapChildren (Ty.replace ctx) (Inst.replace ctx) := by
  -- substitution compares what it made of the types inside, and equality only sees the spelled form
  have hsame (u u' v : Ty) (hu : u.spelled = u'.spelled) : u.same v = u'.same v := by
    rw [Bool.eq_iff_iff, same_iff_spelled.1, same_iff_spelled.1, hu]
  cases t with
  | aggregate inst =>
    obtain ⟨decl, args, outer⟩ := inst
    have hspelled := (spelled_replace ctx).1 (.aggregate (.mk decl args outer))
    rw [replace, Inst.replace_mk, spelled_aggregate, Inst.spelled_ite_same,
      ← spelled_aggregate] at hspelled
    rw [← hsame _ _ _ hspelled, replace, Inst.replace_mk, mapChildren, same, apply_ite Ty.aggregate]
  | param i m n => exact absurd ⟨i, m, n, rfl⟩ ht
  | error parent space name args =>
    have hspelled := (spelled_replace ctx).1 (.error parent space name args)
    rw [replace_error, spelled_ite_same] at hspelled
    rw [← hsame _ _ _ hspelled, replace_error, mapChildren]
  | array element rank vector =>
    rw [rebuild_array, same, ← hsame _ _ element ((spelled_replace ctx).1 element), replace]
    simp [mapChildren, apply_ite fun e => Ty.array e rank vector]
  | pointer referent =>
    rw [rebuild_pointer, same, ← hsame _ _ referent ((spelled_replace ctx).1 referent), replace]
    simp [mapChildren, apply_ite Ty.pointer]
  | nullable inner =>
    rw [rebuild_nullable, same, ← hsame _ _ inner ((spelled_replace ctx).1 inner), replace]
    simp [mapChildren, apply_ite Ty.nullable]
  | byRef target out =>
    rw [rebuild_byRef, same, ← hsame _ _ target ((spelled_replace ctx).1 target), replace]
    simp [mapChildren, apply_ite fun e => Ty.byRef e out]
  | unknown tag => simp [replace, mapChildren]
  | _ => rfl

end

/-- **Substitution depends on the entries for the parameters in the type alone.**

**Proof sketch.** Induction over the types inside a type.  A parameter is itself a part; in any
other type the types inside are replaced alike, and so is what is compared with them. -/
theorem Ty.replace_congr {ctx ctx' : Context} {t : Ty}
    (h : ∀ i m n, .param i m n ∈ t.parts → ctx.find? i m = ctx'.find? i m) :
    t.replace ctx = t.replace ctx' := by
  induction t using Ty.induction_children with
  | h t ih =>
    by_cases hparam : t.IsParam
    · obtain ⟨i, m, n, rfl⟩ := hparam
      rw [replace, replace, h i m n (self_mem_parts _)]
    · have hrebuild : t.rebuild ctx = t.rebuild ctx' :=
        bind_congr fun i m n hp => by rw [h i m n hp]
      have hchildren : t.mapChildren (Ty.replace ctx) (Inst.replace ctx) =
          t.mapChildren (Ty.replace ctx') (Inst.replace ctx') :=
        mapChildren_congr (fun _ => rfl) (fun _ => rfl) fun u hu =>
          ih u hu fun i m n hp => h i m n (mem_parts_of_child hu hp)
      rw [replace_eq_ite hparam, replace_eq_ite hparam, hrebuild, hchildren]

/-! ## Well-formed layers -/

/-- What is directly inside a well-formed type is well-formed. -/
lemma Ty.WellFormed.of_mem_children {g : Graph} {t u : Ty} (ht : t.WellFormed g)
    (hu : u ∈ t.children) : u.WellFormed g := by
  cases ht with
  | aggregate hinst =>
    cases hinst with
    | outermost _ _ hargs => exact hargs u (by simpa [children, Inst.outer, Inst.args] using hu)
    | inside _ hargs houter =>
      rcases mem_children_aggregate.1 hu with ⟨outer, houter', rfl⟩ | hu
      · exact .aggregate (Option.some.inj houter' ▸ houter)
      · exact hargs u hu
  | errorInType hparent hargs =>
    rcases List.mem_cons.1 hu with rfl | hu
    · exact hparent
    · exact hargs u hu
  | errorInSpace _ hargs => exact hargs u hu
  | array h | pointer h | nullable h | byRef h => exact List.mem_singleton.1 hu ▸ h
  | _ => cases hu

/-- A type is well-formed with well-formed types put inside it.

**Proof sketch.** A case for each rule: the layer keeps its side conditions, and the types inside
are well-formed. -/
lemma Ty.WellFormed.mapChildren {g : Graph} {t : Ty} (ht : t.WellFormed g) {f : Ty → Ty}
    {k : Inst → Inst} (hf : ∀ i, f (.aggregate i) = .aggregate (k i))
    (hchildren : ∀ u ∈ t.children, (f u).WellFormed g) : (t.mapChildren f k).WellFormed g := by
  cases ht with
  | aggregate hinst =>
    cases hinst with
    | outermost hdecl hnone _ =>
      refine .aggregate (.outermost hdecl hnone (List.forall_mem_map.2 fun t ht => ?_))
      exact hchildren t (mem_children_aggregate.2 (.inr ht))
    | inside hdecl _ _ =>
      refine .aggregate (.inside hdecl (List.forall_mem_map.2 fun t ht => ?_) ?_)
      · exact hchildren t (mem_children_aggregate.2 (.inr ht))
      · have houter := hchildren _ (mem_children_aggregate.2 (.inl ⟨_, rfl, rfl⟩))
        rw [hf] at houter
        cases houter with
        | aggregate houter => exact houter
  | errorInType _ _ =>
    refine .errorInType (hchildren _ List.mem_cons_self) (List.forall_mem_map.2 fun t ht => ?_)
    exact hchildren t (List.mem_cons_of_mem _ ht)
  | errorInSpace hspace _ =>
    exact .errorInSpace hspace (List.forall_mem_map.2 fun t ht => hchildren t ht)
  | array _ hrank => exact .array (hchildren _ List.mem_cons_self) hrank
  | pointer _ => exact .pointer (hchildren _ List.mem_cons_self)
  | nullable _ => exact .nullable (hchildren _ List.mem_cons_self)
  | byRef _ => exact .byRef (hchildren _ List.mem_cons_self)
  | param hindex => exact .param hindex
  | _ => constructor

/-- The entry of a well-formed context for a parameter, or the parameter itself, is well-formed. -/
lemma Ty.WellFormed.rebuild_param {g : Graph} {ctx : Context} (hctx : ctx.WellFormed g)
    {i : Ordinal} {m : Bool} {n : Option String} (ht : (Ty.param i m n).WellFormed g) :
    ((Ty.param i m n).rebuild ctx).WellFormed g := by
  rw [Ty.rebuild_param]
  cases hfind : ctx.find? i m with
  | none => exact ht
  | some entry => exact hctx.find? hfind

/-- The plain replacement keeps a type well-formed. -/
theorem Ty.WellFormed.rebuild {g : Graph} {ctx : Context} (hctx : ctx.WellFormed g) {t : Ty}
    (ht : t.WellFormed g) : (t.rebuild ctx).WellFormed g := by
  induction t using Ty.induction_children with
  | h t ih =>
    by_cases hparam : t.IsParam
    · obtain ⟨i, m, n, rfl⟩ := hparam
      exact rebuild_param hctx ht
    · rw [rebuild_eq_mapChildren hparam]
      exact ht.mapChildren (fun _ => rfl) fun u hu => ih u hu (ht.of_mem_children hu)

end DisplayNames
