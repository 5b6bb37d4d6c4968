import DisplayNames.Proofs.TypeLayers
import DisplayNames.Proofs.VisibleSpelling

/-!
# The visible replacement

Substitution gives back a type in which the replacement makes no difference, and whether it does is
decided by equality of types, for which an index that is written as a boolean is the same as the
number.  A parameter without a name shows its index as it is written.  So the text of a type under a
context is that of the type in which every covered parameter is replaced by its entry, unless some
part of the type is given back although it holds a parameter without a name whose entry is written
otherwise; then the two texts differ.

## Main definitions

* `DisplayNames.Context.Fixes` — a replacement keeps the parameters without a name as written.
* `DisplayNames.Context.Hides` — a part is given back although a visible index would change.
* `DisplayNames.Ty.Numbered` — all parameters without a name are written with numbers.

## Main results

* `DisplayNames.Context.not_hides_of_numbered` — only booleans can hide anything.
* `DisplayNames.Scene.TellsApart.mapChildren` — types that are put together from others.
* `DisplayNames.Ty.tellsApart_subst` — substitution and the plain replacement.
* `DisplayNames.Document.render_subst` — their texts are the same unless something is hidden.
-/

set_option relaxedAutoImplicit false
set_option autoImplicit false

namespace DisplayNames

/-! ## What is given back -/

namespace Context

variable (ctx : Context)

/-- The replacement keeps every parameter without a name in a type as it is written. -/
def Fixes (t : Ty) : Prop :=
  ∀ i m, .param i m none ∈ t.parts → (Ty.param i m none).rebuild ctx = .param i m none

/-- The replacement is not visible in a part of a type: the part stays equal up to the spelling of
ordinals, so it is given back, but it holds a parameter without a name that is replaced by one with
another spelling. -/
def Hides (t : Ty) : Prop :=
  ∃ u ∈ t.parts, ¬ u.IsParam ∧ (u.rebuild ctx).same u = true ∧ ¬ ctx.Fixes u

variable {ctx}

/-- In a type that is no parameter the parameters are those of the types directly inside it. -/
lemma fixes_iff_children {t : Ty} (ht : ¬ t.IsParam) :
    ctx.Fixes t ↔ ∀ u ∈ t.children, ctx.Fixes u := by
  constructor
  · exact fun h u hu i m hp => h i m (Ty.mem_parts_of_child hu hp)
  · intro h i m hp
    obtain ⟨u, hu, hp⟩ := Ty.exists_child_of_mem_parts hp fun heq => ht ⟨i, m, none, heq.symm⟩
    exact h u hu i m hp

/-- Nothing is hidden in a parameter. -/
lemma not_hides_param (i : Ordinal) (m : Bool) (n : Option String) :
    ¬ ctx.Hides (.param i m n) := by
  rintro ⟨u, hu, hnot, _⟩
  rw [Ty.parts_param, List.mem_singleton] at hu
  exact hnot ⟨i, m, n, hu⟩

/-- In a type that is given back something is hidden unless all its parameters without a name are
kept as written. -/
lemma not_hides_iff_fixes {t : Ty} (ht : ¬ t.IsParam) (hsame : (t.rebuild ctx).same t = true) :
    ¬ ctx.Hides t ↔ ctx.Fixes t := by
  constructor
  · intro h
    by_contra hnot
    exact h ⟨t, t.self_mem_parts, ht, hsame, hnot⟩
  · rintro h ⟨u, hu, _, _, hnot⟩
    exact hnot fun i m hp => h i m (Ty.mem_parts_trans hu hp)

/-- In any other type something is hidden if it is hidden in a type directly inside it. -/
lemma not_hides_iff_children {t : Ty} (hsame : ¬ (t.rebuild ctx).same t = true) :
    ¬ ctx.Hides t ↔ ∀ u ∈ t.children, ¬ ctx.Hides u := by
  constructor
  · rintro h u hu ⟨v, hv, hhides⟩
    exact h ⟨v, Ty.mem_parts_of_child hu hv, hhides⟩
  · rintro h ⟨v, hv, hparam, hv', hnot⟩
    have hne : v ≠ t := fun heq => hsame (heq ▸ hv')
    obtain ⟨u, hu, hv⟩ := Ty.exists_child_of_mem_parts hv hne
    exact h u hu ⟨v, hv, hparam, hv', hnot⟩

end Context

/-! ## Indices that are numbers -/

/-- The indices of all parameters without a name in a type are written as numbers. -/
def Ty.Numbered (t : Ty) : Prop :=
  ∀ i m, .param i m none ∈ t.parts → ∃ n, i = .number n

/-- The entry for a position is one of the types of the context. -/
lemma Context.mem_types_of_find? {ctx : Context} {i : Ordinal} {m : Bool} {entry : Ty}
    (h : ctx.find? i m = some entry) : entry ∈ ctx.types := by
  unfold find? at h
  split at h
  · cases h
  · have hmem := List.mem_of_getElem? h
    cases m with
    | false => exact List.mem_append_left _ hmem
    | true => exact List.mem_append_right _ hmem

/-- **Nothing is hidden as long as no index is written as a boolean**, neither in the type nor in
the context.

**Proof sketch.** Suppose that a part is equal to what it is replaced by.  Then each parameter in
it is spelled like its entry, so that the entry is a parameter with the same value; and numbers
with the same value are the same. -/
theorem Context.not_hides_of_numbered {ctx : Context} {t : Ty} (ht : t.Numbered)
    (hctx : ∀ entry ∈ ctx.types, entry.Numbered) : ¬ ctx.Hides t := by
  rintro ⟨u, hu, _, hsame, hfixes⟩
  refine hfixes fun i m hp => ?_
  have hspelled := Ty.spelled_rebuild_of_part ((Ty.same_iff_spelled.1 _ _).1 hsame) _ hp
  obtain ⟨a, rfl⟩ := ht i m (Ty.mem_parts_trans hu hp)
  rw [Ty.rebuild_param] at hspelled ⊢
  cases hfind : ctx.find? (.number a) m with
  | none => rfl
  | some entry =>
    rw [hfind, Option.getD_some] at hspelled
    rw [Option.getD_some]
    cases entry with
    | param j m' n' =>
      obtain ⟨hvalue, rfl, rfl⟩ : j.value = a ∧ m' = m ∧ n' = none := by
        simpa [Ordinal.spelled_inj, Ordinal.value] using hspelled
      obtain ⟨b, rfl⟩ := hctx _ (mem_types_of_find? hfind) j m' (Ty.self_mem_parts _)
      exact congrArg (fun n => Ty.param (.number n) m' none) hvalue
    | _ => simp [Ty.spelled, Ty.bind] at hspelled

/-! ## Telling types apart -/

section

variable {scene : Scene} {around : Option SymId → Rendering}

/-- **Types that are put together from others tell what these tell.**

**Proof sketch.** A case for each form of a type.  Each layer shows the types inside it and nothing
else that could differ, so it tells what all of them tell together. -/
theorem Scene.TellsApart.mapChildren {t : Ty} (ht : t.WellFormed scene.graph) {f f' : Ty → Ty}
    {k k' : Inst → Inst} (hf : ∀ i, f (.aggregate i) = .aggregate (k i))
    (hf' : ∀ i, f' (.aggregate i) = .aggregate (k' i)) {holds : Ty → Prop}
    (hchildren : ∀ u ∈ t.children, scene.TellsApart around (holds u) (f u) (f' u)) :
    scene.TellsApart around (∀ u ∈ t.children, holds u) (t.mapChildren f k)
      (t.mapChildren f' k') := by
  cases t with
  | aggregate inst =>
    obtain ⟨decl, args, outer⟩ := inst
    cases ht with
    | aggregate hinst =>
      have hargs (t : Ty) (ht : t ∈ args) : scene.TellsApart around (holds t) (f t) (f' t) :=
        hchildren t (Ty.mem_children_aggregate.2 (.inr ht))
      have houter (i : Inst) (hi : outer = some i) :
          (renderInst scene around (k i)).Tells (scene.ShowsAll around) (holds (.aggregate i))
            (renderInst scene around (k' i)) := by
        have hchild := hchildren (.aggregate i) (Ty.mem_children_aggregate.2 (.inl ⟨i, hi, rfl⟩))
        rw [hf, hf'] at hchild
        exact hchild.base
      refine congr ⟨inst hinst hargs houter, rfl⟩ ?_
      cases outer <;> simp [Ty.children, Inst.outer, Inst.args]
  | error parent space name args =>
    have hparent (t : Ty) (ht : parent = some t) : scene.TellsApart around (holds t) (f t) (f' t) :=
      hchildren t (List.mem_append.2 (.inl (Option.mem_toList.2 ht)))
    have hargs (us : List Ty) (hus : args = some us) (t : Ty) (ht : t ∈ us) :
        scene.TellsApart around (holds t) (f t) (f' t) :=
      hchildren t (List.mem_append.2 (.inr (hus ▸ ht)))
    refine (error ht hparent hargs).congr ?_
    cases parent <;> cases args <;> simp [Ty.children]
  | array element rank vector =>
    have hchild := hchildren element (List.mem_singleton.2 rfl)
    exact (hchild.array rank vector).congr (by simp [Ty.children])
  | pointer referent =>
    have hchild := hchildren referent (List.mem_singleton.2 rfl)
    exact hchild.pointer.congr (by simp [Ty.children])
  | nullable underlying =>
    have hchild := hchildren underlying (List.mem_singleton.2 rfl)
    exact hchild.nullable.congr (by simp [Ty.children])
  | byRef target out =>
    have hchild := hchildren target (List.mem_singleton.2 rfl)
    exact (hchild.byRef out).congr (by simp [Ty.children])
  | _ => exact (refl ht).congr (by simp [Ty.children])

variable {ctx : Context}

/-- Parameters that are equal tell whether the one without a name is written alike. -/
lemma Scene.TellsApart.param_of_spelled {i : Ordinal} {m : Bool} {n : Option String} {u : Ty}
    (ht : (Ty.param i m n).WellFormed scene.graph) (hu : u.spelled = (Ty.param i m n).spelled) :
    scene.TellsApart around (n = none → u = .param i m n) (.param i m n) u := by
  cases u with
  | param j m' n' =>
    obtain ⟨hvalue, rfl, rfl⟩ : j.value = i.value ∧ m' = m ∧ n' = n := by
      simpa [Ordinal.spelled_inj] using hu
    cases n' with
    | none => exact (param hvalue.symm m').congr (by simp [eq_comm])
    | some name =>
      have htext : renderBase scene around (.param i m' (some name)) =
          renderBase scene around (.param j m' (some name)) := rfl
      exact ⟨htext ▸ (refl ht).base.congr (by simp), rfl⟩
  | _ => simp [Ty.spelled, Ty.bind] at hu

/-- **A type to which the replacement is equal**, and the plain replacement, tell whether every
parameter without a name is kept as written.

**Proof sketch.** Induction over the types directly inside.  For a parameter the question is its
name.  Any other type keeps its layer and is spelled alike inside, so the layers tell apart what
the types inside tell apart. -/
lemma Ty.tellsApart_rebuild (t : Ty) (ht : t.WellFormed scene.graph)
    (hspelled : (t.rebuild ctx).spelled = t.spelled) :
    scene.TellsApart around (ctx.Fixes t) t (t.rebuild ctx) := by
  induction t using Ty.induction_children with
  | h t ih =>
    by_cases hparam : t.IsParam
    · obtain ⟨i, m, n, rfl⟩ := hparam
      refine (Scene.TellsApart.param_of_spelled ht hspelled).congr
        ⟨fun h i' m' hp => ?_, fun h hn => ?_⟩
      · rw [parts_param, List.mem_singleton, param.injEq] at hp
        obtain ⟨rfl, rfl, hn⟩ := hp
        exact hn ▸ h hn.symm
      · subst hn
        exact h i m (self_mem_parts _)
    · have hchildren (u : Ty) (hu : u ∈ t.children) :
          scene.TellsApart around (ctx.Fixes u) (id u) (u.rebuild ctx) :=
        ih u hu (ht.of_mem_children hu) (spelled_rebuild_of_child hparam hspelled u hu)
      have hlayer : scene.TellsApart around (∀ u ∈ t.children, ctx.Fixes u)
          (t.mapChildren id id) (t.mapChildren (rebuild ctx) (Inst.rebuild ctx)) :=
        .mapChildren ht (fun _ => rfl) (fun _ => rfl) hchildren
      rw [mapChildren_id, ← rebuild_eq_mapChildren hparam] at hlayer
      exact hlayer.congr (Context.fixes_iff_children hparam).symm

/-- **Substitution and the plain replacement** tell whether nothing is hidden.

**Proof sketch.** Induction over the types directly inside.  A parameter is replaced on both sides
alike.  For any other type substitution either gives the type back, where `tellsApart_rebuild`
applies, or goes on inside it, where the hypotheses do. -/
lemma Ty.tellsApart_replace (hctx : ctx.WellFormed scene.graph) (t : Ty)
    (ht : t.WellFormed scene.graph) :
    scene.TellsApart around (¬ ctx.Hides t) (t.replace ctx) (t.rebuild ctx) := by
  induction t using Ty.induction_children with
  | h t ih =>
    by_cases hparam : t.IsParam
    · obtain ⟨i, m, n, rfl⟩ := hparam
      exact (Scene.TellsApart.refl (ht.rebuild hctx)).congr (by simp [Context.not_hides_param])
    · rw [replace_eq_ite hparam]
      by_cases hsame : (t.rebuild ctx).same t = true
      · rw [if_pos hsame]
        have hspelled := (same_iff_spelled.1 _ _).1 hsame
        exact (tellsApart_rebuild t ht hspelled).congr
          (Context.not_hides_iff_fixes hparam hsame).symm
      · rw [if_neg hsame]
        have hchildren (u : Ty) (hu : u ∈ t.children) :
            scene.TellsApart around (¬ ctx.Hides u) (u.replace ctx) (u.rebuild ctx) :=
          ih u hu (ht.of_mem_children hu)
        have hlayer : scene.TellsApart around (∀ u ∈ t.children, ¬ ctx.Hides u)
            (t.mapChildren (replace ctx) (Inst.replace ctx))
            (t.mapChildren (rebuild ctx) (Inst.rebuild ctx)) :=
          .mapChildren ht (fun _ => rfl) (fun _ => rfl) hchildren
        rw [← rebuild_eq_mapChildren hparam] at hlayer
        exact hlayer.congr (Context.not_hides_iff_children hsame).symm

/-- **Substitution under a context, and the plain replacement.** -/
theorem Ty.tellsApart_subst (hctx : ctx.WellFormed scene.graph) {t : Ty}
    (ht : t.WellFormed scene.graph) :
    scene.TellsApart around (¬ ctx.Hides t) (t.subst (some ctx)) (t.rebuild ctx) := by
  rw [subst_some]
  split
  · -- nothing is hidden by a context that covers nothing
    rename_i hnop
    have hnone : ¬ ctx.Hides t := by
      rintro ⟨u, _, _, _, hfixes⟩
      exact hfixes fun i m _ => rebuild_of_isNop hnop _
    rw [rebuild_of_isNop hnop]
    exact (Scene.TellsApart.refl ht).congr (by simp [hnone])
  · exact tellsApart_replace hctx t ht

end

/-! ## Displayed types -/

/-- Over a loaded graph every part of a type is displayed if no declaration has a nice name. -/
lemma Scene.showsAll_of_loaded {scene : Scene} (h : scene.graph.Nested)
    (hnames : ∀ id, scene.niceName? id = none) {bound : Nat} (hb : scene.graph.size ≤ bound) :
    scene.ShowsAll (scene.around (scene.plainUpTo bound)) where
  niceName? := hnames
  rooted := h.toRooted
  outermost := rfl
  spaces _ hspace := stop_around_space h hb hspace

/-- Renderings that tell whether something holds, and go through, have the same text if it holds,
and in an exact setting only then. -/
lemma Rendering.Tells.finish {exact P : Prop} {a b : Rendering} (h : a.Tells exact P b)
    (ha : a.stop = none) (hb : b.stop = none) (catalog : Catalog) :
    ∃ text text', a.finish catalog = .ok text ∧ b.finish catalog = .ok text' ∧
      (P → text = text') ∧ (exact → text = text' → P) := by
  refine ⟨Piece.join catalog a.pieces, Piece.join catalog b.pieces, ?_, ?_, fun hP => ?_,
    fun hexact heq => ?_⟩
  · rw [Rendering.finish, ha]
    rfl
  · rw [Rendering.finish, hb]
    rfl
  · rw [h.eq hP]
  · exact h.of_pieces hexact (Piece.eq_of_join_eq (h.varies hexact) heq)

namespace Document

/-- **Substitution is one simultaneous replacement unless it hides something.**  Every type that a
document can contain has a text under every context of such types, and so has the type in which each
covered parameter is replaced by its entry.  If the context hides nothing in the type, the two texts
are the same; if no declaration has a nice name, they are the same only then.

**Proof sketch.** Layer by layer, substitution gives a type back or goes on with the types directly
inside it, as the replacement does.  Where it gives a type back, the pieces of the two displays
differ at most in how the indices of parameters without a name are spelled, and the text of the
pieces decides whether they do. -/
theorem render_subst {json : Json} {doc : Document} (hdoc : ofJson json = .ok doc) {t : Ty}
    (ht : t.WellFormed doc.graph) {ctx : Context} (hctx : ctx.WellFormed doc.graph)
    (display : Display) {r : Renderer} (hr : r.session.isOpen = false) :
    ∃ text text', (r.render doc.graph display (.type (t.subst (some ctx)) none)).1 = .ok text ∧
      (r.render doc.graph display (.type (t.rebuild ctx) none)).1 = .ok text' ∧
      (¬ ctx.Hides t → text = text') ∧
      ((∀ id, display.niceNames.find? doc.graph id = none) → text = text' → ¬ ctx.Hides t) := by
  have hgraph : doc.graph.Nested := (loaded_of_ofJson hdoc).graph.toNested
  let scene : Scene := ⟨doc.graph, display.niceNames, r.memo.isBogus doc.graph⟩
  have hsize : scene.graph.size ≤ scene.walkBound := by
    obtain ⟨bound, hbound, hlt⟩ := scene.walkBound_eq_succ
    omega
  have hstop {u : Ty} (hu : u.WellFormed doc.graph) :
      (scene.typeUpTo scene.walkBound none u).stop = none :=
    Scene.stop_typeUpTo hgraph hsize (by simp) hu
  have hwell : (t.subst (some ctx)).WellFormed doc.graph := ht.subst (by simpa using hctx)
  have htells : (scene.typeUpTo scene.walkBound none (t.subst (some ctx))).Tells
      (scene.ShowsAll (scene.around (scene.plainUpTo scene.walkBound))) (¬ ctx.Hides t)
      (scene.typeUpTo scene.walkBound none (t.rebuild ctx)) :=
    (Ty.tellsApart_subst hctx ht).ty
  obtain ⟨text, text', hsubst, hrebuild, heq, hhides⟩ :=
    htells.finish (hstop hwell) (hstop (ht.rebuild hctx)) display.catalog
  have hall (hnames : ∀ id, scene.niceName? id = none) :
      scene.ShowsAll (scene.around (scene.plainUpTo scene.walkBound)) :=
    Scene.showsAll_of_loaded hgraph hnames hsize
  refine ⟨text, text', ?_, ?_, heq, fun hnames => hhides (hall hnames)⟩
  · rw [Renderer.render_fst hr]
    exact hsubst
  · rw [Renderer.render_fst hr]
    exact hrebuild

/-- A pair whose first argument becomes a parameter that the context covers too. -/
theorem render_subst_pair :
    ∃ doc t ctx, ofJson (.obj
        [("declarations", .arr [.obj [("kind", .str "struct"), ("name", .str "Pair"),
          ("type_params", .arr [.str "A", .str "B"])]]),
        ("render", .arr [.obj [("type", .obj [("type", .str "Pair"), ("args", .arr
            [.obj [("pointer", .obj [("param", .int 0)])], .obj [("param", .int 1)]])]),
          ("type_args", .arr [.obj [("param", .int 1)], .obj [("special", .str "void")]])]])]) =
        .ok doc ∧
      doc.requests.map Request.subject = [.type t (some ctx)] ∧
      t.WellFormed doc.graph ∧ ctx.WellFormed doc.graph ∧
      ({} : Renderer).session.isOpen = false ∧
      (∀ id, ({ niceNames := [] } : Display).niceNames.find? doc.graph id = none) ∧
      (∃ text text',
        (({} : Renderer).render doc.graph { niceNames := [] }
          (.type (t.subst (some ctx)) none)).1 = .ok text ∧
        (({} : Renderer).render doc.graph { niceNames := [] } (.type (t.rebuild ctx) none)).1 =
          .ok text' ∧
        (¬ ctx.Hides t ↔ text = text')) ∧
      (({} : Renderer).render doc.graph { niceNames := [] } (.type (t.subst (some ctx)) none)).1 =
        .ok "Pair<!1*,void>" ∧
      (({} : Renderer).render doc.graph { niceNames := [] } (.type (t.rebuild ctx) none)).1 =
        .ok "Pair<!1*,void>" := by
  refine ⟨?doc, .aggregate (.mk (SymId.root.child (.member "Pair" 0))
      [.pointer (.param (.number 0) false none), .param (.number 1) false none] none),
    ⟨[.param (.number 1) false none, .void], []⟩, ?hdoc, ?hrequests, ?ht, ?hctx, rfl, fun _ => rfl,
    (render_subst ?hdoc ?ht ?hctx { niceNames := [] } rfl).imp fun _ h => h.imp fun _ h =>
      ⟨h.1, h.2.1, h.2.2.1, h.2.2.2 fun _ => rfl⟩, ?hsubst, ?hrebuild⟩
  case hdoc => exact rfl
  case hrequests => exact rfl
  case ht =>
    refine .aggregate (.outermost rfl rfl ?_)
    simpa using ⟨.pointer (.param (by decide)), .param (by decide)⟩
  case hctx =>
    refine ⟨?_, by simp⟩
    simpa using ⟨.param (by decide), .void⟩
  case hsubst => decide +kernel
  case hrebuild => decide +kernel

/-- **The replacement can be hidden.**  A boolean stands for the parameter of a pointer, and the
context covers it by the parameter with the same number.  The pointer is given back, though the
plain replacement has another text. -/
theorem render_subst_hidden :
    ∃ doc t ctx, ofJson (.obj
        [("render", .arr [.obj [("type", .obj [("pointer", .obj [("param", .bool true)])]),
          ("type_args", .arr [.obj [("param", .int 0)], .obj [("param", .int 1)]])]])]) =
        .ok doc ∧
      doc.requests.map Request.subject = [.type t (some ctx)] ∧
      t.subst (some ctx) = .pointer (.param (.truth true) false none) ∧
      t.rebuild ctx = .pointer (.param (.number 1) false none) ∧
      (({} : Renderer).render doc.graph {} (.type (t.subst (some ctx)) none)).1 = .ok "!True*" ∧
      (({} : Renderer).render doc.graph {} (.type (t.rebuild ctx) none)).1 = .ok "!1*" := by
  refine ⟨?doc, .pointer (.param (.truth true) false none),
    ⟨[.param (.number 0) false none, .param (.number 1) false none], []⟩, ?hdoc, ?hrequests,
    ?hsubst, rfl, ?htext, ?htext'⟩
  case hdoc => exact rfl
  case hrequests => exact rfl
  case hsubst => exact rfl
  case htext => decide +kernel
  case htext' => decide +kernel

end Document

end DisplayNames
