import DisplayNames.Proofs.ParameterOccurrences

/-!
# Broken references in signatures

A signature is bogus if it mentions a declaration that could not be loaded.  The check goes through
all levels and arguments of instantiations and through arrays, pointers, nullables and parameters
passed by reference.  It does not look into unresolved types; so a signature passes for sound if the
broken declarations it mentions all stand inside such types, and then they are displayed.

## Main definitions

* `DisplayNames.Method.signature` — the types of a signature.
* `DisplayNames.Ty.Mentions` — a type mentions a broken declaration somewhere.
* `DisplayNames.Ty.OpenIn` — a part of a type that no unresolved type is around.
* `DisplayNames.Method.HidesBroken` — all broken declarations stand inside unresolved types.

## Main results

* `DisplayNames.Ty.isBogus_iff` — what the check finds in a type.
* `DisplayNames.Renderer.checkSignature_mentions` — what it finds in a signature.
-/

set_option relaxedAutoImplicit false
set_option autoImplicit false

namespace DisplayNames

/-- The types of a signature: the result, if there is one, and the parameters. -/
def Method.signature (m : Method) : List Ty := m.returns.toList ++ m.params

/-- A type mentions a broken declaration, at any depth: as an aggregate, in arguments and enclosing
levels, under suffixes and modifiers, and in unresolved types. -/
def Ty.Mentions (broken : SymId → Bool) (t : Ty) : Prop :=
  ∃ inst, .aggregate inst ∈ t.parts ∧ broken inst.decl = true

/-- The type stands for one that did not resolve. -/
def Ty.IsUnresolved (t : Ty) : Prop := ∃ parent space name args, t = .error parent space name args

/-- A part of a type that no unresolved type is around. -/
inductive Ty.OpenIn (p : Ty) : Ty → Prop
  | self : OpenIn p p
  | inside {t u : Ty} : ¬ t.IsUnresolved → u ∈ t.children → OpenIn p u → OpenIn p t

/-- The signature mentions a broken declaration, and all that it mentions stand inside unresolved
types. -/
def Method.HidesBroken (broken : SymId → Bool) (m : Method) : Prop :=
  (∃ t ∈ m.signature, t.Mentions broken) ∧
    ∀ t ∈ m.signature, ∀ inst, (Ty.aggregate inst).OpenIn t → broken inst.decl = false

section

variable {broken : SymId → Bool}

/-! ## Types -/

/-- What is open in a type is a part of it. -/
lemma Ty.OpenIn.mem_parts {p t : Ty} (h : p.OpenIn t) : p ∈ t.parts := by
  induction h with
  | self => exact p.self_mem_parts
  | inside _ hu _ ih => exact mem_parts_of_child hu ih

/-- Several types are checked one by one. -/
lemma Ty.anyBogus_eq_any (ts : List Ty) :
    Ty.anyBogus broken ts = ts.any (Ty.isBogus broken) := by
  induction ts with
  | nil => rfl
  | cons t rest ih => rw [anyBogus, ih, List.any_cons]

/-- A type that is not unresolved is bogus if it is an instantiation of a broken aggregate, or if a
type directly inside it is bogus. -/
lemma Ty.isBogus_iff_children {t : Ty} (ht : ¬ t.IsUnresolved) :
    t.isBogus broken = true ↔
      (∃ inst, t = .aggregate inst ∧ broken inst.decl = true) ∨
        ∃ u ∈ t.children, u.isBogus broken = true := by
  cases t with
  | aggregate inst =>
    obtain ⟨decl, args, outer⟩ := inst
    cases outer <;>
      simp [isBogus, instBogus, anyBogus_eq_any, children, Inst.decl, Inst.outer, Inst.args,
        or_assoc]
  | error parent space name args => exact absurd ⟨parent, space, name, args, rfl⟩ ht
  | _ => simp [isBogus, children]

/-- **A type is bogus exactly if a broken aggregate is open in it.**

**Proof sketch.** Induction over types.  An unresolved type is never bogus, and nothing but itself
is open in it; any other type passes the question on to the types directly inside. -/
theorem Ty.isBogus_iff (t : Ty) :
    t.isBogus broken = true ↔ ∃ inst, (Ty.aggregate inst).OpenIn t ∧ broken inst.decl = true := by
  induction t using Ty.induction_children with
  | h t ih =>
    by_cases ht : t.IsUnresolved
    · obtain ⟨parent, space, name, args, rfl⟩ := ht
      constructor
      · intro h
        simp [isBogus] at h
      · rintro ⟨inst, hopen, _⟩
        cases hopen with
        | inside hnot _ _ => exact absurd ⟨parent, space, name, args, rfl⟩ hnot
    · rw [isBogus_iff_children ht]
      constructor
      · rintro (⟨inst, rfl, hbroken⟩ | ⟨u, hu, hbogus⟩)
        · exact ⟨inst, .self, hbroken⟩
        · obtain ⟨inst, hopen, hbroken⟩ := (ih u hu).1 hbogus
          exact ⟨inst, .inside ht hu hopen, hbroken⟩
      · rintro ⟨inst, hopen, hbroken⟩
        cases hopen with
        | self => exact .inl ⟨inst, rfl, hbroken⟩
        | inside _ hu hopen => exact .inr ⟨_, hu, (ih _ hu).2 ⟨inst, hopen, hbroken⟩⟩

/-- A bogus type mentions a broken declaration. -/
lemma Ty.mentions_of_isBogus {t : Ty} (h : t.isBogus broken = true) : t.Mentions broken := by
  obtain ⟨inst, hopen, hbroken⟩ := t.isBogus_iff.1 h
  exact ⟨inst, hopen.mem_parts, hbroken⟩

/-! ## Signatures -/

/-- A signature does not hide a broken declaration that is open in one of its types. -/
lemma Method.not_hidesBroken_of_open {m : Method} {t : Ty} {inst : Inst} (ht : t ∈ m.signature)
    (hopen : (Ty.aggregate inst).OpenIn t) (hbroken : broken inst.decl = true) :
    ¬ m.HidesBroken broken := by
  rintro ⟨_, hhidden⟩
  rw [hhidden t ht inst hopen] at hbroken
  cases hbroken

variable {g : Graph} {id : SymId} {s : Symbol} {m : Method}

/-- A signature is bogus if one of its types is. -/
lemma Graph.signatureBogus_iff (hs : g.find? id = some s) (hd : s.detail = .method m) :
    g.signatureBogus id = true ↔ ∃ t ∈ m.signature, t.isBogus g.isBroken = true := by
  have hm : (g.find? id).bind Symbol.method? = some m := by simp [hs, Symbol.method?, hd]
  unfold signatureBogus Method.signature
  rw [hm]
  cases hreturns : m.returns <;> simp [hreturns]

/-- A signature that hides all broken declarations is not bogus; any other one is bogus exactly if
it mentions a broken declaration.

**Proof sketch.** A type that is bogus mentions a broken declaration outside of unresolved types,
where nothing is hidden.  If no type is bogus, every broken declaration that is mentioned is inside
of unresolved types. -/
lemma Graph.signatureBogus_of_hidesBroken (hs : g.find? id = some s) (hd : s.detail = .method m) :
    (m.HidesBroken g.isBroken → g.signatureBogus id = false) ∧
      (¬ m.HidesBroken g.isBroken →
        (g.signatureBogus id = true ↔ ∃ t ∈ m.signature, t.Mentions g.isBroken)) := by
  have hcheck := signatureBogus_iff hs hd
  refine ⟨fun hhidden => ?_, fun hshown => ⟨fun h => ?_, fun hmentions => ?_⟩⟩
  · rw [Bool.eq_false_iff, Ne, hcheck]
    rintro ⟨t, ht, hbogus⟩
    obtain ⟨inst, hopen, hbroken⟩ := t.isBogus_iff.1 hbogus
    exact Method.not_hidesBroken_of_open ht hopen hbroken hhidden
  · obtain ⟨t, ht, hbogus⟩ := hcheck.1 h
    exact ⟨t, ht, Ty.mentions_of_isBogus hbogus⟩
  · by_contra hsound
    refine hshown ⟨hmentions, fun t ht inst hopen => ?_⟩
    by_contra hbroken
    have hbogus := t.isBogus_iff.2 ⟨inst, hopen, by simpa using hbroken⟩
    exact hsound (hcheck.2 ⟨t, ht, hbogus⟩)

end

namespace Renderer

variable {r : Renderer} {g : Graph} {id : SymId} {s : Symbol} {m : Method}

/-- **The check of a signature**, for a method that has not been checked before.  Unless all broken
declarations that the signature mentions stand inside unresolved types, it finds the signature bogus
exactly if a broken declaration is mentioned anywhere in the result or in a parameter, and then no
parameter is displayed.  Otherwise it overlooks them.

**Proof sketch.** A type is bogus exactly if a broken declaration is mentioned in it outside of
unresolved types.  For a method that was not checked before, the answer is looked up in the graph,
and the list of a bogus signature is not displayed. -/
theorem checkSignature_mentions (hs : g.find? id = some s) (hd : s.detail = .method m)
    (hfresh : r.memo.get? id = none) :
    (¬ m.HidesBroken g.isBroken →
      ((r.checkSignature g id).1 = true ↔ ∃ t ∈ m.signature, t.Mentions g.isBroken) ∧
      ((∃ t ∈ m.signature, t.Mentions g.isBroken) → ∀ (names : NiceNames) (type : Ty → Rendering)
        (catalog : Catalog), (Scene.methodArguments ⟨g, names, r.memo.isBogus g⟩ type id m).finish
          catalog = .ok "()")) ∧
    (m.HidesBroken g.isBroken → (r.checkSignature g id).1 = false) := by
  have hanswer : r.memo.isBogus g id = g.signatureBogus id := by
    rw [Memo.isBogus, hfresh, Option.getD_none]
  have hcheck : (r.checkSignature g id).1 = g.signatureBogus id := hanswer
  obtain ⟨hhidden, hshown⟩ := Graph.signatureBogus_of_hidesBroken hs hd
  rw [hcheck]
  refine ⟨fun h => ⟨hshown h, fun hmentions names type catalog => ?_⟩, hhidden⟩
  have hbogus : r.memo.isBogus g id = true := hanswer.trans ((hshown h).2 hmentions)
  rw [Scene.methodArguments, if_pos hbogus]
  rfl

/-- A class in a class that could not be loaded, as the element of an array that is passed by
reference: the enclosing level counts. -/
theorem checkSignature_mentions_enclosing :
    let json : Json := .obj [("declarations", .arr [
      .obj [("kind", .str "class"), ("name", .str "C"), ("members", .arr [
        .obj [("kind", .str "method"), ("name", .str "M"),
          ("params", .arr [.obj [("ref", .obj [("array", .str "G.N")])]])]])],
      .obj [("kind", .str "class"), ("name", .str "G"), ("bogus", .bool true),
        ("members", .arr [.obj [("kind", .str "class"), ("name", .str "N")]])]])]
    ∃ doc id s m, Document.ofJson json = .ok doc ∧ doc.graph.find? id = some s ∧
      s.detail = .method m ∧ ({} : Renderer).memo.get? id = none ∧
      ¬ m.HidesBroken doc.graph.isBroken ∧
      ((({} : Renderer).checkSignature doc.graph id).1 = true ↔
        ∃ t ∈ m.signature, t.Mentions doc.graph.isBroken) ∧
      (({} : Renderer).checkSignature doc.graph id).1 = true := by
  intro json
  obtain ⟨doc, id, s, n, k, hdoc, hs, hd, hbroken, hcheck⟩ : ∃ doc id s n k,
      Document.ofJson json = .ok doc ∧ doc.graph.find? id = some s ∧
      s.detail = .method
        { params := [.byRef (.array (.aggregate (.mk n [] (some (.mk k [] none)))) (.number 1) true)
            false] } ∧
      doc.graph.isBroken k = true ∧ (({} : Renderer).checkSignature doc.graph id).1 = true := by
    refine ⟨?doc, (SymId.root.child (.member "C" 0)).child (.member "M" 0), ?symbol,
      (SymId.root.child (.member "G" 0)).child (.member "N" 0), SymId.root.child (.member "G" 0),
      ?hdoc, ?hs, ?hd, ?hbroken, ?hcheck⟩
    case hdoc => cbv; rfl
    case hs => cbv; rfl
    case hd => rfl
    all_goals decide +kernel
  have hopen : (Ty.aggregate (.mk k [] none)).OpenIn (.byRef
      (.array (.aggregate (.mk n [] (some (.mk k [] none)))) (.number 1) true) false) := by
    refine .inside ?_ (List.mem_singleton.2 rfl) (.inside ?_ (List.mem_singleton.2 rfl)
      (.inside ?_ (List.mem_singleton.2 rfl) .self)) <;>
      · rintro ⟨_, _, _, _, heq⟩
        cases heq
  have hshown := Method.not_hidesBroken_of_open
    (m := { params := [.byRef (.array (.aggregate (.mk n [] (some (.mk k [] none)))) (.number 1)
      true) false] }) (List.mem_singleton.2 rfl) hopen hbroken
  exact ⟨doc, id, s, _, hdoc, hs, hd, rfl, hshown, ((checkSignature_mentions hs hd rfl).1 hshown).1,
    hcheck⟩

/-- A parameter of an unresolved type with an argument that could not be loaded: the signature is
not bogus, and the argument is displayed. -/
theorem checkSignature_overlooks :
    let json : Json := .obj [("declarations", .arr [
      .obj [("kind", .str "class"), ("name", .str "B"), ("bogus", .bool true)],
      .obj [("kind", .str "class"), ("name", .str "C"), ("members", .arr [
        .obj [("kind", .str "method"), ("name", .str "M"),
          ("params", .arr [.obj [("error", .str "E"), ("args", .arr [.str "B"])]])]])]])]
    ∃ doc id s m, Document.ofJson json = .ok doc ∧ doc.graph.find? id = some s ∧
      s.detail = .method m ∧ ({} : Renderer).memo.get? id = none ∧
      (∃ t ∈ m.signature, t.Mentions doc.graph.isBroken) ∧
      (({} : Renderer).checkSignature doc.graph id).1 = false ∧
      (({} : Renderer).render doc.graph {} (.symbol (some id) none true)).1 = .ok "C.M(E<B>)" := by
  intro json
  refine ⟨?doc, (SymId.root.child (.member "C" 0)).child (.member "M" 0), ?symbol,
    { params := [.error none (some .root) (some "E")
        (some [.aggregate (.mk (SymId.root.child (.member "B" 0)) [] none)])] },
    ?hdoc, ?hs, ?hd, rfl, ?hmentions, ?hcheck, ?htext⟩
  case hdoc => cbv; rfl
  case hs => cbv; rfl
  case hd => rfl
  case hmentions =>
    refine ⟨_, List.mem_singleton.2 rfl, .mk (SymId.root.child (.member "B" 0)) [] none, ?_, ?_⟩
    · simp [Ty.parts, Ty.partsAll, Inst.parts]
    · cbv
  case hcheck => decide +kernel
  case htext => decide +kernel

end Renderer

end DisplayNames
