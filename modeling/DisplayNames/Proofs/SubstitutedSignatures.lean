import DisplayNames.Proofs.BrokenReferences
import DisplayNames.Proofs.PlainReplacement

/-!
# Broken references under substitution

A signature is checked for broken references as it is declared, but displayed as the context
instantiates it.  The check and the substitution are two recursions over the same types, and they go
into the same places: a type under a context is bogus exactly if the type is bogus or a bogus entry
is put in the place of a parameter that is open in it.  So substitution never hides a broken
reference, and it brings none in unless an entry of the context has it; under all other contexts the
check of the declared signature decides about the displayed one.

## Main results

* `DisplayNames.Ty.isBogus_bind` — broken references in a type with types put in for its parameters.
* `DisplayNames.Ty.isBogus_subst_iff` — broken references in a type under a context.
* `DisplayNames.Graph.signatureBogus_subst` — broken references in a signature under a context.
-/

set_option relaxedAutoImplicit false
set_option autoImplicit false

namespace DisplayNames

section

variable {broken : SymId → Bool} {f : Ordinal → Bool → Option String → Ty} {r : Ordinal → Ordinal}

/-! ## Traversals -/

/-- A parameter is open in a parameter only if the two are the same. -/
lemma Ty.openIn_param {p : Ty} {i : Ordinal} {m : Bool} {n : Option String} :
    p.OpenIn (.param i m n) ↔ p = .param i m n := by
  constructor
  · intro h
    cases h with
    | self => rfl
    | inside _ hu _ => cases hu
  · rintro rfl
    exact .self

/-- Nothing but itself is open in an unresolved type. -/
lemma Ty.IsUnresolved.openIn {p t : Ty} (ht : t.IsUnresolved) : p.OpenIn t ↔ p = t := by
  constructor
  · intro h
    cases h with
    | self => rfl
    | inside hnot _ _ => exact absurd ht hnot
  · rintro rfl
    exact .self

/-- In any other type, what is open in a type directly inside it is open. -/
lemma Ty.openIn_iff_children {p t : Ty} (ht : ¬ t.IsUnresolved) :
    p.OpenIn t ↔ p = t ∨ ∃ u ∈ t.children, p.OpenIn u := by
  constructor
  · intro h
    cases h with
    | self => exact .inl rfl
    | inside _ hu hopen => exact .inr ⟨_, hu, hopen⟩
  · rintro (rfl | ⟨u, hu, hopen⟩)
    · exact .self
    · exact .inside ht hu hopen

/-- An unresolved type is not bogus. -/
lemma Ty.IsUnresolved.isBogus {t : Ty} (ht : t.IsUnresolved) : t.isBogus broken = false := by
  obtain ⟨parent, space, name, args, rfl⟩ := ht
  simp [Ty.isBogus]

/-- A traversal goes from unresolved types to unresolved types. -/
lemma Ty.isUnresolved_bind {t : Ty} (ht : ¬ t.IsParam) :
    (t.bind f r).IsUnresolved ↔ t.IsUnresolved := by
  cases t with
  | param i m n => exact absurd ⟨i, m, n, rfl⟩ ht
  | _ => simp [IsUnresolved, bind]

/-- A traversal goes from instantiations of an aggregate to instantiations of the same aggregate. -/
lemma Ty.bind_eq_aggregate {t : Ty} (ht : ¬ t.IsParam) :
    (∃ inst, t.bind f r = .aggregate inst ∧ broken inst.decl = true) ↔
      ∃ inst, t = .aggregate inst ∧ broken inst.decl = true := by
  cases t with
  | aggregate inst =>
    obtain ⟨decl, args, outer⟩ := inst
    simp [bind, Inst.decl]
  | param i m n => exact absurd ⟨i, m, n, rfl⟩ ht
  | _ => simp [bind]

/-- **A type with types put in for its parameters is bogus** exactly if it was bogus before or what
is put in for a parameter that is open in it is bogus.

**Proof sketch.** Induction over types.  An unresolved type is not looked into, neither before nor
after.  Any other layer is kept, so both sides pass the question on to the types directly inside,
until a parameter is met. -/
theorem Ty.isBogus_bind (t : Ty) :
    (t.bind f r).isBogus broken = true ↔ t.isBogus broken = true ∨
      ∃ i m n, (Ty.param i m n).OpenIn t ∧ (f i m n).isBogus broken = true := by
  induction t using Ty.induction_children with
  | h t ih =>
    by_cases hparam : t.IsParam
    · obtain ⟨i, m, n, rfl⟩ := hparam
      have hsound : ¬ (Ty.param i m n).isBogus broken = true := by simp [isBogus]
      rw [bind, or_iff_right hsound]
      constructor
      · exact fun hbogus => ⟨i, m, n, .self, hbogus⟩
      · rintro ⟨_, _, _, hopen, hbogus⟩
        cases openIn_param.1 hopen
        exact hbogus
    by_cases ht : t.IsUnresolved
    · have hbind : (t.bind f r).IsUnresolved := (isUnresolved_bind hparam).2 ht
      rw [hbind.isBogus, ht.isBogus]
      simp only [Bool.false_eq_true, false_or, false_iff]
      rintro ⟨i, m, n, hopen, _⟩
      exact hparam ⟨i, m, n, (ht.openIn.1 hopen).symm⟩
    · have hbind : ¬ (t.bind f r).IsUnresolved := fun h => ht ((isUnresolved_bind hparam).1 h)
      rw [isBogus_iff_children hbind, isBogus_iff_children ht, bind_eq_aggregate hparam,
        children_bind hparam]
      simp only [List.mem_map, exists_exists_and_eq_and]
      constructor
      · rintro (hbroken | ⟨u, hu, hbogus⟩)
        · exact .inl (.inl hbroken)
        · rcases (ih u hu).1 hbogus with hbogus | ⟨i, m, n, hopen, hbogus⟩
          · exact .inl (.inr ⟨u, hu, hbogus⟩)
          · exact .inr ⟨i, m, n, .inside ht hu hopen, hbogus⟩
      · rintro ((hbroken | ⟨u, hu, hbogus⟩) | ⟨i, m, n, hopen, hbogus⟩)
        · exact .inl hbroken
        · exact .inr ⟨u, hu, (ih u hu).2 (.inl hbogus)⟩
        · rcases (openIn_iff_children ht).1 hopen with heq | ⟨u, hu, hopen⟩
          · exact absurd ⟨i, m, n, heq.symm⟩ hparam
          · exact .inr ⟨u, hu, (ih u hu).2 (.inr ⟨i, m, n, hopen, hbogus⟩)⟩

/-! ## Substitution -/

/-- The spelling of ordinals does not matter for the check. -/
lemma Ty.isBogus_spelled (t : Ty) : t.spelled.isBogus broken = t.isBogus broken := by
  have hbind : t.spelled.isBogus broken = true ↔ _ := t.isBogus_bind
  rw [Bool.eq_iff_iff, hbind]
  simp [isBogus]

/-- **A type under a context is bogus** exactly if the type is, or a bogus entry is put in the place
of a parameter that is open in the type. -/
theorem Ty.isBogus_subst_iff (ctx : Option Context) (t : Ty) :
    (t.subst ctx).isBogus broken = true ↔ t.isBogus broken = true ∨
      ∃ i m n entry, (Ty.param i m n).OpenIn t ∧
        (Context.effective ctx).find? i m = some entry ∧ entry.isBogus broken = true := by
  have hbind : (t.rebuild (Context.effective ctx)).isBogus broken = true ↔ _ := t.isBogus_bind
  rw [← isBogus_spelled, spelled_subst_effective, isBogus_spelled, hbind]
  refine or_congr_right (exists_congr fun i => exists_congr fun m => exists_congr fun n => ?_)
  cases hfind : (Context.effective ctx).find? i m with
  | none => simp [isBogus]
  | some entry => simp

/-- A context without bogus entries makes no difference to the check of a type. -/
lemma Ty.isBogus_subst {ctx : Option Context}
    (hctx : ∀ c ∈ ctx, ∀ entry ∈ c.types, entry.isBogus broken = false) (t : Ty) :
    (t.subst ctx).isBogus broken = t.isBogus broken := by
  rw [Bool.eq_iff_iff, isBogus_subst_iff, or_iff_left]
  rintro ⟨i, m, n, entry, _, hfind, hbogus⟩
  cases ctx with
  | none => simp [Context.effective, Context.find?] at hfind
  | some c =>
    rw [hctx c rfl entry (Context.mem_types_of_find? hfind)] at hbogus
    cases hbogus

end

/-! ## Signatures -/

namespace Graph

/-- **Substitution neither hides nor invents broken references.**  A bogus type stays bogus under
every context.  Under a context without bogus entries the check comes to the same before and after,
for every type; so the check of a declared signature is that of the types which the context makes
of its result and parameters.  The brackets behind a method then hold the list of its parameters
exactly if none of these types is bogus, and nothing otherwise.

**Proof sketch.** The check does not see how ordinals are spelled, and up to that substitution is
the plain replacement, which keeps every layer and puts the entries in the place of parameters.  A
sound memo knows of every method what the check of its declared signature comes to. -/
theorem signatureBogus_subst (g : Graph) (ctx : Option Context) :
    (∀ t : Ty, t.isBogus g.isBroken = true → (t.subst ctx).isBogus g.isBroken = true) ∧
    ((∀ c ∈ ctx, ∀ entry ∈ c.types, entry.isBogus g.isBroken = false) →
      (∀ t : Ty, (t.subst ctx).isBogus g.isBroken = t.isBogus g.isBroken) ∧
      ∀ id s m, g.find? id = some s → s.detail = .method m →
        g.signatureBogus id = (m.signature.map (Ty.subst ctx)).any (Ty.isBogus g.isBroken) ∧
        ∀ memo : Memo, memo.Sound g → ∀ (names : NiceNames) (type : Ty → Rendering),
          Scene.methodArguments ⟨g, names, memo.isBogus g⟩ type id m =
            (.literal "(" >> .examine id >>
              (if (m.signature.map (Ty.subst ctx)).any (Ty.isBogus g.isBroken) then .empty
                else paramList type m.params m.varargs m.paramArray) >> .literal ")")) := by
  refine ⟨fun t ht => (Ty.isBogus_subst_iff ctx t).2 (.inl ht), fun hctx => ?_⟩
  have hsubst : ∀ t : Ty, (t.subst ctx).isBogus g.isBroken = t.isBogus g.isBroken :=
    Ty.isBogus_subst hctx
  refine ⟨hsubst, fun id s m hs hd => ?_⟩
  have hsignature : g.signatureBogus id =
      (m.signature.map (Ty.subst ctx)).any (Ty.isBogus g.isBroken) := by
    rw [Bool.eq_iff_iff, signatureBogus_iff hs hd, List.any_map, List.any_eq_true]
    simp only [Function.comp_apply, hsubst]
  refine ⟨hsignature, fun memo hmemo names type => ?_⟩
  have hbogus : memo.isBogus g id = _ := (congrFun (Memo.sound_iff.1 hmemo) id).trans hsignature
  simp only [Scene.methodArguments, hbogus]

/-- A method with an array of its class's parameter and a class that could not be loaded, by
reference, under a context that makes the array one of pointers: the signature is bogus before and
after, and nothing is shown in the brackets.  A method with the array alone is sound before and
after, and the array is shown. -/
theorem signatureBogus_subst_pointers :
    let json : Json := .obj [("declarations", .arr [
      .obj [("kind", .str "class"), ("name", .str "B"), ("bogus", .bool true)],
      .obj [("kind", .str "class"), ("name", .str "C"), ("type_params", .arr [.str "T"]),
        ("members", .arr [
          .obj [("kind", .str "method"), ("name", .str "M"),
            ("params", .arr [.obj [("array", .str "T")], .obj [("ref", .str "B")]])],
          .obj [("kind", .str "method"), ("name", .str "N"),
            ("params", .arr [.obj [("array", .str "T")]])]])]])]
    let ctx : Context := ⟨[.pointer .void], []⟩
    let array : Ty := .array (.param (.number 0) false (some "T")) (.number 1) true
    ∃ doc m n broken, Document.ofJson json = .ok doc ∧
      (∀ entry ∈ ctx.types, entry.isBogus doc.graph.isBroken = false) ∧
      array.subst (some ctx) = .array (.pointer .void) (.number 1) true ∧
      broken.isBogus doc.graph.isBroken = true ∧
      (broken.subst (some ctx)).isBogus doc.graph.isBroken = true ∧
      doc.graph.signatureBogus m =
        ([array, broken].map (Ty.subst (some ctx))).any (Ty.isBogus doc.graph.isBroken) ∧
      doc.graph.signatureBogus m = true ∧
      doc.graph.signatureBogus n =
        ([array].map (Ty.subst (some ctx))).any (Ty.isBogus doc.graph.isBroken) ∧
      doc.graph.signatureBogus n = false ∧
      let scene : Scene := ⟨doc.graph, [], Memo.isBogus [] doc.graph⟩
      let type (t : Ty) : Rendering := scene.type t (some ctx)
      (scene.methodArguments type m { params := [array, broken] }).finish MessageId.default =
        .ok "()" ∧
      (scene.methodArguments type n { params := [array] }).finish MessageId.default =
        .ok "(void*[])" := by
  intro json ctx array
  let b := SymId.root.child (.member "B" 0)
  let c := SymId.root.child (.member "C" 0)
  obtain ⟨doc, s, s', hdoc, hs, hd, hs', hd', hbroken, hctx, hm, hn⟩ : ∃ doc s s',
      Document.ofJson json = .ok doc ∧
      doc.graph.find? (c.child (.member "M" 0)) = some s ∧
      s.detail = .method { params := [array, .byRef (.aggregate (.mk b [] none)) false] } ∧
      doc.graph.find? (c.child (.member "N" 0)) = some s' ∧
      s'.detail = .method { params := [array] } ∧
      (Ty.byRef (.aggregate (.mk b [] none)) false).isBogus doc.graph.isBroken = true ∧
      (∀ entry ∈ ctx.types, entry.isBogus doc.graph.isBroken = false) ∧
      doc.graph.signatureBogus (c.child (.member "M" 0)) = true ∧
      doc.graph.signatureBogus (c.child (.member "N" 0)) = false := by
    refine ⟨?doc, ?s, ?s', ?hdoc, ?hs, ?hd, ?hs', ?hd', ?hbroken, ?hctx, ?hm, ?hn⟩
    case hdoc => cbv; rfl
    case hs => cbv; rfl
    case hd => rfl
    case hs' => cbv; rfl
    case hd' => rfl
    case hctx => simp [ctx, Context.types, Ty.isBogus]
    all_goals decide +kernel
  obtain ⟨hkeeps, hsound⟩ := signatureBogus_subst doc.graph (some ctx)
  obtain ⟨_, hmethod⟩ := hsound (by simpa using hctx)
  obtain ⟨hsignature, hshown⟩ := hmethod _ s _ hs hd
  obtain ⟨hsignature', hshown'⟩ := hmethod _ s' _ hs' hd'
  refine ⟨doc, _, _, .byRef (.aggregate (.mk b [] none)) false, hdoc, hctx, rfl, hbroken,
    hkeeps _ hbroken, hsignature, hm, hsignature', hn, ?_, ?_⟩
  · rw [hshown [] (.empty _), if_pos (hsignature.symm.trans hm)]
    rfl
  · have hnot := Bool.eq_false_iff.1 (hsignature'.symm.trans hn)
    rw [hshown' [] (.empty _), if_neg hnot]
    rfl

end Graph

end DisplayNames
