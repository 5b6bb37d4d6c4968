import DisplayNames.Proofs.EnclosingTypes
import DisplayNames.Proofs.GraphInvariant

/-!
# Qualified names of types

The text of an instantiation in terms of its levels.  Each level contributes a segment, its name
with its own arguments in angle brackets.  The innermost level with a nice name cuts off all that
stands in front of it, and contributes the nice name in the place of its segment; if no level has a
nice name, the namespaces around the outermost level come first.

## Main definitions

* `DisplayNames.displayedName` — the text of a declared name.
* `DisplayNames.Inst.levels` — the levels of an instantiation.
* `DisplayNames.Graph.segment` — what a level contributes.
* `DisplayNames.Graph.namespaces` — the namespaces around a declaration.

## Main results

* `DisplayNames.Scene.finish_around_space` — the text of the namespaces around a declaration.
* `DisplayNames.Scene.finish_instUpTo_cut` — an instantiation with a nice name on some level.
* `DisplayNames.Scene.finish_instUpTo_full` — an instantiation without one.
* `DisplayNames.Document.render_qualified` — the types of accepted documents.
-/

set_option relaxedAutoImplicit false
set_option autoImplicit false

namespace DisplayNames

/-- The text of a declared name. -/
def displayedName (name : Option String) : String :=
  if name = some indexerName then "this" else name.getD ""

/-- The levels of an instantiation, outermost first: the aggregates with their own arguments. -/
def Inst.levels : Inst → List (SymId × List Ty)
  | .mk decl args none => [(decl, args)]
  | .mk decl args (some outer) => outer.levels ++ [(decl, args)]

/-- What a level contributes to the text of a type: its name and, in angle brackets, its own
arguments, if there are any. -/
def Graph.segment (g : Graph) (text : Ty → String) (level : SymId × List Ty) : String :=
  displayedName ((g.find? level.1).bind Symbol.name) ++
    if level.2.isEmpty then "" else "<" ++ ",".intercalate (level.2.map text) ++ ">"

/-- The namespaces around a symbol below the root, outermost first; a namespace counts itself. -/
def Graph.namespaces (g : Graph) (id : SymId) : List Symbol :=
  (((g.chain id).filter fun e => e.2.kind == .space && e.1 != g.root).map Prod.snd).reverse

/-! ## Levels -/

/-- There is an outermost level. -/
lemma Inst.levels_ne_nil : ∀ inst : Inst, inst.levels ≠ []
  | .mk _ _ none => by simp [levels]
  | .mk _ _ (some _) => by simp [levels]

/-! ## Namespaces -/

namespace Graph.Rooted

variable {g : Graph} (h : g.Rooted)
include h

/-- The root is not around itself. -/
lemma namespaces_root : g.namespaces g.root = [] := by
  have hroot : g.find? g.root = some ⟨none, none, .space⟩ := h.root_eq ▸ h.root_symbol
  unfold namespaces chain
  cases g.size with
  | zero => rfl
  | succ size => simp [chainUpTo, hroot]

/-- The namespaces around a symbol are those around its parent and, if it is one, itself. -/
lemma namespaces_eq {id parent : SymId} {s : Symbol} (hs : g.find? id = some s)
    (hparent : s.parent = some parent) :
    g.namespaces id = g.namespaces parent ++ if s.kind = .space then [s] else [] := by
  have hroot : id ≠ g.root := by
    rintro rfl
    rw [h.root_eq, h.root_symbol, Option.some.injEq] at hs
    simp [← hs] at hparent
  unfold namespaces
  rw [h.chain_eq hs hparent]
  by_cases hspace : s.kind = .space <;> simp [hspace, hroot]

end Graph.Rooted

/-! ## The text of an instantiation -/

/-- Two renderings in a row that both have a text have the two texts in a row. -/
lemma Rendering.finish_andThen_of_ok {a b : Rendering} {catalog : Catalog} {front back : String}
    (ha : a.finish catalog = .ok front) (hb : b.finish catalog = .ok back) :
    (a >> b).finish catalog = .ok (front ++ back) :=
  finish_andThen_eq_ok.2 ⟨front, back, ha, hb, rfl⟩

/-- Several things that all have a text have the texts with the separator between any two. -/
lemma Rendering.finish_separated_of_ok {α : Type} (separator : String) {render : α → Rendering}
    {text : α → String} {catalog : Catalog} {items : List α}
    (h : ∀ item ∈ items, (render item).finish catalog = .ok (text item)) :
    (separated separator render items).finish catalog =
      .ok (separator.intercalate (items.map text)) := by
  have htexts : (items.mapM fun item => (render item).finish catalog) = .ok (items.map text) := by
    induction items with
    | nil => rfl
    | cons item rest ih =>
      rw [List.mapM_cons, h item List.mem_cons_self,
        ih fun item hitem => h item (List.mem_cons_of_mem _ hitem)]
      rfl
  rw [finish_separated, htexts]
  rfl

/-- A declared name goes through with its text. -/
lemma finish_nameText (catalog : Catalog) (name : Option String) :
    (nameText name).finish catalog = .ok (displayedName name) :=
  Rendering.finish_literal catalog _

namespace Scene

variable {scene : Scene} (catalog : Catalog)

/-- **The namespaces around a declaration** are displayed outermost first, with a point behind each
of them.

**Proof sketch.** Induction on the bound along the namespaces, from the inside out.  The root is
not displayed; any other namespace is displayed behind the one around it, with a point. -/
theorem finish_around_space (h : scene.graph.Rooted) {bound : Nat} {space : SymId}
    (hspace : scene.graph.kind? space = some .space) (hb : space.steps.length < bound) :
    (scene.around (scene.plainUpTo bound) (some space)).finish catalog =
      .ok (String.join
        ((scene.graph.namespaces space).map fun s => displayedName s.name ++ ".")) := by
  induction bound generalizing space with
  | zero => omega
  | succ bound ih =>
    by_cases hroot : space = scene.graph.root
    · subst hroot
      rw [h.namespaces_root, around, if_pos rfl]
      rfl
    · obtain ⟨s, hs, hkind⟩ := Option.map_eq_some_iff.1 hspace
      obtain ⟨parent, around, hparent, haround, _, hlt⟩ := h.parent hs (h.root_eq ▸ hroot)
      have hfront := ih (h.parent_of_space hs hkind hparent) (by omega)
      have hd : s.detail = .space := by
        cases hd : s.detail <;> simp_all [Symbol.kind, Detail.kind]
      have hpoint : (Rendering.literal ".").finish catalog = .ok "." :=
        Rendering.finish_literal catalog _
      have hall := Rendering.finish_andThen_of_ok
        (Rendering.finish_andThen_of_ok hfront (finish_nameText catalog s.name)) hpoint
      rw [Scene.around, if_neg hroot, plainUpTo, symbolUpTo_space hs hd, if_neg hroot, hparent,
        hall, h.namespaces_eq hs hparent, if_pos hkind, List.map_append, String.join_append]
      simp [String.append_assoc]

section

variable {bound : Nat} {text : Ty → String}
  (htext : ∀ t : Ty, t.WellFormed scene.graph → (scene.typeUpTo bound none t).finish catalog =
    .ok (text t))

/-- A nice name stands for an instantiation with all its levels. -/
lemma finish_instUpTo_of_nice {decl : SymId} {nice : String}
    (hnice : scene.niceName? decl = some nice) (args : List Ty) (outer : Option Inst) :
    (scene.instUpTo bound (.mk decl args outer)).finish catalog = .ok nice := by
  rw [instUpTo, renderInst, hnice]
  exact Rendering.finish_literal catalog nice

include htext

/-- The text of one level. -/
lemma finish_segment (decl : SymId) {args : List Ty}
    (hargs : ∀ t ∈ args, t.WellFormed scene.graph) :
    (nameText ((scene.graph.find? decl).bind Symbol.name) >>
      angled args fun _ => renderArgs scene (scene.around (scene.plainUpTo bound)) args).finish
        catalog = .ok (scene.graph.segment text (decl, args)) := by
  have hinside : (renderArgs scene (scene.around (scene.plainUpTo bound)) args).finish catalog =
      .ok (",".intercalate (args.map text)) := by
    rw [renderArgs_eq_separated]
    exact Rendering.finish_separated_of_ok "," fun t ht => htext t (hargs t ht)
  have hangled : (angled args fun _ =>
      renderArgs scene (scene.around (scene.plainUpTo bound)) args).finish catalog =
        .ok (if args.isEmpty then "" else "<" ++ ",".intercalate (args.map text) ++ ">") := by
    rw [Rendering.finish_angled, hinside]
    cases args <;> rfl
  exact Rendering.finish_andThen_of_ok (finish_nameText catalog _) hangled

variable {decl : SymId} (hnone : scene.niceName? decl = none)
include hnone

/-- A nested level without a nice name is displayed behind the enclosing level. -/
lemma finish_instUpTo_inside {args : List Ty} (hargs : ∀ t ∈ args, t.WellFormed scene.graph)
    {outer : Inst} {front : String}
    (houter : (scene.instUpTo bound outer).finish catalog = .ok front) :
    (scene.instUpTo bound (.mk decl args (some outer))).finish catalog =
      .ok (front ++ "." ++ scene.graph.segment text (decl, args)) := by
  have hpoint : (Rendering.literal ".").finish catalog = .ok "." :=
    Rendering.finish_literal catalog _
  rw [instUpTo, renderInst, hnone]
  exact Rendering.finish_andThen_of_ok (Rendering.finish_andThen_of_ok houter hpoint)
    (finish_segment catalog htext decl hargs)

/-- The outermost level is displayed behind the namespaces around it. -/
lemma finish_instUpTo_outermost (h : scene.graph.Nested) (hb : scene.graph.size ≤ bound)
    {args : List Ty} (hinst : (Inst.mk decl args none).WellFormed scene.graph) :
    (scene.instUpTo bound (.mk decl args none)).finish catalog =
      .ok (String.join ((scene.graph.namespaces decl).map fun s => displayedName s.name ++ ".") ++
        scene.graph.segment text (decl, args)) := by
  cases hinst with
  | outermost hkind houter hargs =>
    obtain ⟨s, a, parent, hs, ha, hparent⟩ := h.aggregate_cases hkind
    have hspace := h.space_of_outermost houter hs hparent
    obtain ⟨around, haround, _, hlt⟩ := h.parent_of_eq hs hparent
    have hdepth := h.depth hs
    have hfront := finish_around_space catalog h.toRooted hspace (by omega : _ < bound)
    have hnot : s.kind ≠ .space := by simp [Symbol.kind, ha, Detail.kind]
    have hnamespaces : scene.graph.namespaces decl = scene.graph.namespaces parent := by
      rw [h.namespaces_eq hs hparent, if_neg hnot, List.append_nil]
    rw [← hnamespaces, ← hparent] at hfront
    rw [instUpTo, renderInst, hnone]
    refine Rendering.finish_andThen_of_ok ?_ (finish_segment catalog htext decl hargs)
    rw [hs]
    exact hfront

omit hnone in
/-- **The nice-name cut.**  The innermost level with a nice name is displayed as that name, with the
segments of the levels inside it behind it and nothing in front.

**Proof sketch.** Recursion along the enclosing instantiations.  If the cut is at the innermost
level, its nice name is all that is displayed.  Otherwise the innermost level has none, and its
segment is put behind the text of the levels around it. -/
theorem finish_instUpTo_cut : ∀ (inst : Inst), inst.WellFormed scene.graph →
    ∀ (front back : List (SymId × List Ty)) (level : SymId × List Ty) (nice : String),
      inst.levels = front ++ level :: back → scene.niceName? level.1 = some nice →
      (∀ l ∈ back, scene.niceName? l.1 = none) →
      (scene.instUpTo bound inst).finish catalog =
        .ok (".".intercalate (nice :: back.map (scene.graph.segment text)))
  | .mk decl args none, _, front, back, level, nice, hlevels, hnice, _ => by
    obtain ⟨rfl, rfl, rfl⟩ : front = [] ∧ level = (decl, args) ∧ back = [] := by
      cases front <;> simp_all [Inst.levels]
    rw [finish_instUpTo_of_nice catalog hnice]
    simp
  | .mk decl args (some outer), hinst, front, back, level, nice, hlevels, hnice, hback => by
    rw [Inst.levels] at hlevels
    rcases List.eq_nil_or_concat back with rfl | ⟨back, last, rfl⟩
    · -- the cut is at the innermost level
      obtain ⟨rfl, hlevel⟩ := List.append_inj' hlevels rfl
      obtain rfl := List.head_eq_of_cons_eq hlevel
      rw [finish_instUpTo_of_nice catalog hnice]
      simp
    · rw [List.concat_eq_append, ← List.cons_append, ← List.append_assoc] at hlevels
      obtain ⟨houter, hlast⟩ := List.append_inj' hlevels rfl
      obtain rfl := List.head_eq_of_cons_eq hlast
      rw [List.concat_eq_append] at hback ⊢
      cases hinst with
      | inside _ hargs hwell =>
        have hfront := finish_instUpTo_cut outer hwell front back level nice houter hnice
          fun l hl => hback l (List.mem_append_left _ hl)
        have hnone := hback (decl, args) (List.mem_append_right _ List.mem_cons_self)
        rw [finish_instUpTo_inside catalog htext hnone hargs hfront, List.map_append,
          ← List.cons_append, String.intercalate_append_of_ne_nil (by simp) (by simp)]
        simp

omit hnone in
/-- **The full name.**  Without a nice name on any level all segments are displayed, behind the
namespaces around the outermost level.

**Proof sketch.** Recursion along the enclosing instantiations.  The outermost level is displayed
behind its namespaces, and each other level behind the enclosing one with a point. -/
theorem finish_instUpTo_full (h : scene.graph.Nested) (hb : scene.graph.size ≤ bound) :
    ∀ (inst : Inst), inst.WellFormed scene.graph →
    ∀ (outermost : SymId × List Ty) (rest : List (SymId × List Ty)),
      inst.levels = outermost :: rest → (∀ l ∈ inst.levels, scene.niceName? l.1 = none) →
      (scene.instUpTo bound inst).finish catalog =
        .ok (String.join ((scene.graph.namespaces outermost.1).map
            fun s => displayedName s.name ++ ".") ++
          ".".intercalate (inst.levels.map (scene.graph.segment text)))
  | .mk decl args none, hinst, outermost, rest, hlevels, hnone => by
    obtain ⟨rfl, rfl⟩ : outermost = (decl, args) ∧ rest = [] := by
      simpa [Inst.levels, eq_comm] using hlevels
    have hdecl := hnone (decl, args) (by simp [Inst.levels])
    rw [finish_instUpTo_outermost catalog htext hdecl h hb hinst]
    simp [Inst.levels]
  | .mk decl args (some outer), hinst, outermost, rest, hlevels, hnone => by
    rw [Inst.levels] at hlevels hnone ⊢
    obtain ⟨first, inside, houter⟩ := List.exists_cons_of_ne_nil outer.levels_ne_nil
    obtain rfl : first = outermost := by
      rw [houter, List.cons_append] at hlevels
      exact List.head_eq_of_cons_eq hlevels
    cases hinst with
    | inside _ hargs hwell =>
      have hfront := finish_instUpTo_full h hb outer hwell first inside houter
        fun l hl => hnone l (List.mem_append_left _ hl)
      have hdecl := hnone (decl, args) (List.mem_append_right _ List.mem_cons_self)
      rw [finish_instUpTo_inside catalog htext hdecl hargs hfront, List.map_append,
        String.intercalate_append_of_ne_nil (by simp [outer.levels_ne_nil]) (by simp)]
      simp [String.append_assoc]

end

end Scene

namespace Document

/-- **Qualified names and the nice-name cut.**  In an accepted document every type has a text.  If a
level of an instantiation has a nice name, the text is the nice name of the innermost such level and
the segments of the levels inside it, joined by points; nothing in front of that level shows, and
neither do its arguments.  Otherwise it is the namespaces around the outermost level, with a point
behind each of them, and the segments of all levels, joined by points.

**Proof sketch.** Induction on the levels from the outside in.  A level with a nice name does not
look at what is around it; any other one is displayed behind the enclosing level. -/
theorem render_qualified {json : Json} {doc : Document} (hdoc : ofJson json = .ok doc)
    (display : Display) {r : Renderer} (hr : r.session.isOpen = false) :
    ∃ text : Ty → String,
      (∀ t : Ty, t.WellFormed doc.graph →
        (r.render doc.graph display (.type t none)).1 = .ok (text t)) ∧
      ∀ inst : Inst, inst.WellFormed doc.graph →
        (∀ (front back : List (SymId × List Ty)) (level : SymId × List Ty) (nice : String),
          inst.levels = front ++ level :: back →
          display.niceNames.find? doc.graph level.1 = some nice →
          (∀ l ∈ back, display.niceNames.find? doc.graph l.1 = none) →
          text (.aggregate inst) =
            ".".intercalate (nice :: back.map (doc.graph.segment text))) ∧
        ∀ (outermost : SymId × List Ty) (rest : List (SymId × List Ty)),
          inst.levels = outermost :: rest →
          (∀ l ∈ inst.levels, display.niceNames.find? doc.graph l.1 = none) →
          text (.aggregate inst) =
            String.join
              ((doc.graph.namespaces outermost.1).map fun s => displayedName s.name ++ ".") ++
              ".".intercalate (inst.levels.map (doc.graph.segment text)) := by
  have hloaded := (loaded_of_ofJson hdoc).graph
  let scene : Scene := ⟨doc.graph, display.niceNames, r.memo.isBogus doc.graph⟩
  have hscene : scene.graph.Loaded := hloaded
  have hsize : scene.graph.size ≤ scene.walkBound := by
    unfold Scene.walkBound
    omega
  let text (t : Ty) : String :=
    String.join ((scene.typeUpTo scene.walkBound none t).parts display.catalog)
  have htext (t : Ty) (ht : t.WellFormed scene.graph) :
      (scene.typeUpTo scene.walkBound none t).finish display.catalog = .ok (text t) := by
    refine (Rendering.finish_eq_ok_iff _ _ _).2 ⟨?_, rfl⟩
    exact Scene.stop_typeUpTo hscene.toNested hsize (by simp) ht
  have hinst {inst : Inst} (hinst : inst.WellFormed scene.graph) {name : String}
      (hname : (scene.instUpTo scene.walkBound inst).finish display.catalog = .ok name) :
      text (.aggregate inst) = name := by
    have htype := htext _ (.aggregate hinst)
    have heq : scene.typeUpTo scene.walkBound none (.aggregate inst) =
        scene.instUpTo scene.walkBound inst := scene.type_aggregate inst none
    rw [heq, hname, Except.ok.injEq] at htype
    exact htype.symm
  refine ⟨text, fun t ht => ?_, fun inst hwell => ⟨?cut, ?full⟩⟩
  case cut =>
    intro front back level nice hlevels hnice hback
    exact hinst hwell (Scene.finish_instUpTo_cut display.catalog htext inst hwell front back level
      nice hlevels hnice hback)
  case full =>
    intro outermost rest hlevels hnone
    exact hinst hwell (Scene.finish_instUpTo_full display.catalog htext hscene.toNested hsize inst
      hwell outermost rest hlevels hnone)
  rw [Renderer.render_fst hr]
  exact htext t ht

/-- A nice name in the middle of three levels cuts off the namespace, the outermost level and the
arguments of its own level; without it all of them show. -/
theorem render_qualified_middle :
    let json : Json := .obj [("declarations", .arr [.obj [("kind", .str "namespace"),
      ("name", .str "N"), ("members", .arr [.obj [("kind", .str "class"), ("name", .str "A"),
        ("type_params", .arr [.str "T"]), ("members", .arr [.obj [("kind", .str "class"),
          ("name", .str "B"), ("type_params", .arr [.str "U"]), ("members", .arr [
            .obj [("kind", .str "struct"), ("name", .str "C"),
              ("type_params", .arr [.str "V"])]])]])]])]])]
    ∃ doc a b c inst, ofJson json = .ok doc ∧ ({} : Renderer).session.isOpen = false ∧
      inst.WellFormed doc.graph ∧
      inst.levels = [(a, [.void])] ++ (b, [.null]) :: [(c, [.pointer .void])] ∧
      NiceNames.find? [("N.A.B", "bee")] doc.graph b = some "bee" ∧
      NiceNames.find? [("N.A.B", "bee")] doc.graph c = none ∧
      (∃ text, (({} : Renderer).render doc.graph { niceNames := [("N.A.B", "bee")] }
          (.type (.aggregate inst) none)).1 = .ok (text (.aggregate inst)) ∧
        text (.aggregate inst) =
          ".".intercalate ["bee", doc.graph.segment text (c, [.pointer .void])]) ∧
      (∃ text, (({} : Renderer).render doc.graph { niceNames := [] }
          (.type (.aggregate inst) none)).1 = .ok (text (.aggregate inst)) ∧
        text (.aggregate inst) =
          String.join ((doc.graph.namespaces a).map fun s => displayedName s.name ++ ".")
            ++ ".".intercalate (inst.levels.map (doc.graph.segment text))) ∧
      (({} : Renderer).render doc.graph { niceNames := [("N.A.B", "bee")] }
        (.type (.aggregate inst) none)).1 = .ok "bee.C<void*>" ∧
      (({} : Renderer).render doc.graph { niceNames := [] } (.type (.aggregate inst) none)).1 =
        .ok "N.A<void>.B<<null>>.C<void*>" := by
  intro json
  obtain ⟨doc, a, b, c, hdoc, ha, hb, hc, houter, hnice, hnone, hcut, hfull⟩ : ∃ doc a b c,
      ofJson json = .ok doc ∧ doc.graph.kind? a = some .aggregate ∧
      doc.graph.kind? b = some .aggregate ∧ doc.graph.kind? c = some .aggregate ∧
      doc.graph.outerAggregate? a = none ∧
      NiceNames.find? [("N.A.B", "bee")] doc.graph b = some "bee" ∧
      NiceNames.find? [("N.A.B", "bee")] doc.graph c = none ∧
      (({} : Renderer).render doc.graph { niceNames := [("N.A.B", "bee")] } (.type (.aggregate
        (.mk c [.pointer .void] (some (.mk b [.null] (some (.mk a [.void] none)))))) none)).1 =
          .ok "bee.C<void*>" ∧
      (({} : Renderer).render doc.graph { niceNames := [] } (.type (.aggregate
        (.mk c [.pointer .void] (some (.mk b [.null] (some (.mk a [.void] none)))))) none)).1 =
          .ok "N.A<void>.B<<null>>.C<void*>" := by
    refine ⟨?doc, (SymId.root.child (.member "N" 0)).child (.member "A" 0),
      ((SymId.root.child (.member "N" 0)).child (.member "A" 0)).child (.member "B" 0),
      (((SymId.root.child (.member "N" 0)).child (.member "A" 0)).child (.member "B" 0)).child
        (.member "C" 0), ?hdoc, ?ha, ?hb, ?hc, ?houter, ?hnice, ?hnone, ?hcut, ?hfull⟩
    case hdoc => cbv; rfl
    all_goals decide +kernel
  have hwell : Inst.WellFormed doc.graph
      (.mk c [.pointer .void] (some (.mk b [.null] (some (.mk a [.void] none))))) := by
    refine .inside hc ?_ (.inside hb ?_ (.outermost ha houter ?_))
    · simpa using .pointer .void
    · simpa using .null
    · simpa using .void
  obtain ⟨text, htext, hqualified⟩ :=
    render_qualified hdoc { niceNames := [("N.A.B", "bee")] } (r := {}) rfl
  obtain ⟨text', htext', hqualified'⟩ := render_qualified hdoc { niceNames := [] } (r := {}) rfl
  exact ⟨doc, a, b, c, _, hdoc, rfl, hwell, rfl, hnice, hnone,
    ⟨text, htext _ (.aggregate hwell), (hqualified _ hwell).1 [(a, [.void])]
      [(c, [.pointer .void])] (b, [.null]) "bee" rfl hnice (by simpa using hnone)⟩,
    ⟨text', htext' _ (.aggregate hwell), (hqualified' _ hwell).2 (a, [.void])
      [(b, [.null]), (c, [.pointer .void])] rfl fun _ _ => rfl⟩, hcut, hfull⟩

end Document

end DisplayNames
