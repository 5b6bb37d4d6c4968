import DisplayNames.Proofs.Composition
import DisplayNames.Proofs.EnclosingTypes
import DisplayNames.Proofs.GraphInvariant
import DisplayNames.Proofs.TypeLayers

/-!
# Contexts of slots

An explicit implementation is displayed as the interface member that it implements.  The member is
displayed in the context of the interface as the implementation's own context instantiates it.  So a
type of the member goes through one replacement, by arguments in which the replacement by the outer
context has been made already.  This is the same as one replacement after the other, unless the type
has a parameter that the interface does not cover: the outer context must not get at it.

## Main definitions

* `DisplayNames.Ty.Below` — types whose parameters belong to types and have small positions.

## Main results

* `DisplayNames.Inst.argsAll_bind` — replacement goes through the arguments of all levels.
* `DisplayNames.Ty.rebuild_argsAll` — replacement by replaced arguments.
* `DisplayNames.Document.render_slot` — what a slot is displayed as.
-/

set_option relaxedAutoImplicit false
set_option autoImplicit false

namespace DisplayNames

/-- All parameters in a type belong to types and have positions below a bound. -/
def Ty.Below (bound : Nat) (t : Ty) : Prop :=
  ∀ i m n, .param i m n ∈ t.parts → m = false ∧ i.value < (bound : Int)

/-! ## Arguments of all levels -/

/-- **The arguments of all levels are traversed one by one**, whatever the nesting. -/
theorem Inst.argsAll_bind (param : Ordinal → Bool → Option String → Ty)
    (rank : Ordinal → Ordinal) :
    ∀ inst : Inst, (inst.bind param rank).argsAll = inst.argsAll.map (Ty.bind param rank)
  | .mk decl args none => by simp [argsAll]
  | .mk decl args (some outer) => by
    rw [bind_mk, Option.map_some, argsAll, argsAll, argsAll_bind param rank outer, List.map_append]

/-- The arguments of an instantiation under a context are its arguments under the context, up to the
spelling of ordinals. -/
lemma Inst.spelled_argsAll_subst (ctx : Option Context) (inst : Inst) :
    (inst.subst ctx).argsAll.map Ty.spelled =
      inst.argsAll.map fun t => (t.subst ctx).spelled := by
  calc
    (inst.subst ctx).argsAll.map Ty.spelled
      = (inst.subst ctx).spelled.argsAll := (argsAll_bind ..).symm
    _ = (inst.rebuild (Context.effective ctx)).argsAll.map Ty.spelled := by
      rw [spelled_subst_effective]
      exact argsAll_bind ..
    _ = (inst.argsAll.map (Ty.rebuild (Context.effective ctx))).map Ty.spelled :=
      congrArg (List.map Ty.spelled) (argsAll_bind ..)
    _ = inst.argsAll.map fun t => (t.subst ctx).spelled := by
      rw [List.map_map]
      exact List.map_congr_left fun t _ => (Ty.spelled_subst_effective ctx t).symm

/-- **The context of a slot** has the arguments of all levels of the interface under the outer
context, and nothing for parameters of methods. -/
lemma slotContext_same (ats : Inst) (ctx : Option Context) :
    (slotContext (some ats) ctx).same ⟨ats.argsAll.map (Ty.subst ctx), []⟩ = true := by
  have hargs := Inst.spelled_argsAll_subst ctx ats
  rw [Context.same_iff_spelled]
  simp only [slotContext, Context.ofInst, Context.spelled, Option.map_some, Option.getD_some, hargs,
    List.map_map, List.map_nil]
  rfl

/-! ## One replacement and two -/

/-- **Replacement by replaced arguments** is one replacement after the other, for types with no
other parameters than those that the arguments cover. -/
theorem Ty.rebuild_argsAll {args : List Ty} {t : Ty} (ht : t.Below args.length) (ctx : Context) :
    t.rebuild ⟨args.map (Ty.rebuild ctx), []⟩ = (t.rebuild ⟨args, []⟩).rebuild ctx := by
  unfold rebuild
  rw [(bind_bind _ _ _ _).1]
  refine bind_congr fun i m n hp => ?_
  obtain ⟨rfl, hlt⟩ := ht i m n hp
  by_cases hneg : i.value < 0
  · -- no context covers a negative position
    simp [Context.find?, hneg, bind]
  · have hbound : i.value.toNat < args.length := by omega
    simp [Context.find?, hneg, hbound]

/-- **The context of a slot has the effect of the interface's context followed by the outer one**
on the types that have no other parameters than those of the interface. -/
lemma Ty.subst_slotContext {ats : Inst} {t : Ty} (ht : t.Below ats.argsAll.length)
    (ctx : Option Context) :
    (t.subst (some (slotContext (some ats) ctx))).same
      ((t.subst (some (.ofInst (some ats) []))).subst ctx) = true := by
  -- equal contexts have equal effects, so the slot may have the plainly replaced arguments
  have hslot : (slotContext (some ats) ctx).spelled =
      (Context.mk (ats.argsAll.map (Ty.rebuild (Context.effective ctx))) []).spelled := by
    rw [(Context.same_iff_spelled _ _).1 (slotContext_same ats ctx)]
    simp only [Context.spelled, List.map_map, Context.mk.injEq, and_true]
    exact List.map_congr_left fun t _ => Ty.spelled_subst_effective ctx t
  rw [same_iff_spelled.1]
  calc
    (t.subst (some (slotContext (some ats) ctx))).spelled
      = (t.rebuild ⟨ats.argsAll.map (Ty.rebuild (Context.effective ctx)), []⟩).spelled := by
      rw [spelled_subst, hslot, spelled_rebuild]
    _ = ((t.rebuild (.ofInst (some ats) [])).rebuild (Context.effective ctx)).spelled :=
      congrArg spelled (rebuild_argsAll ht _)
    _ = ((t.subst (some (.ofInst (some ats) []))).subst ctx).spelled := by
      rw [spelled_subst_effective, spelled_rebuild, spelled_rebuild, spelled_rebuild,
        ← spelled_subst]

/-! ## Slots of accepted documents -/

/-- Only members implement anything, and in a loaded graph what they implement is well-formed. -/
lemma Graph.Loaded.of_impl? {g : Graph} (h : g.Loaded) {id : SymId} {s : Symbol}
    (hs : g.find? id = some s) {impl : ExplicitImpl} (himpl : s.impl? = some impl) :
    s.kind ≠ .space ∧ s.kind ≠ .aggregate ∧ impl.WellFormed g := by
  unfold Symbol.impl? at himpl
  cases hd : s.detail with
  | method m =>
    obtain rfl : m.impl = impl := by simpa [hd] using himpl
    simp [Symbol.kind, hd, Detail.kind, (h.method hs hd).impl]
  | property p =>
    obtain rfl : p.impl = impl := by simpa [hd] using himpl
    simp [Symbol.kind, hd, Detail.kind, (h.property hs hd).impl]
  | _ => simp [hd] at himpl

namespace Scene

variable {scene : Scene}

/-- A method or property with a resolved slot is displayed as the interface member, behind what
stands in front of it. -/
lemma symbolUpTo_slot {bound : Nat} {id : SymId} {s : Symbol}
    (hs : scene.graph.find? id = some s) {impl : ExplicitImpl} (himpl : s.impl? = some impl)
    {member : SymId} {on : Option Inst} (htarget : impl.target? = some (member, on))
    (ctx : Option Context) (args : Bool) :
    scene.symbolUpTo (bound + 1) id ctx args =
      (scene.enclosing (scene.plainUpTo bound) ctx s.parent >>
        scene.symbolUpTo bound member (some (slotContext on ctx))
          (args || s.kind == .property)) := by
  unfold Symbol.impl? at himpl
  cases hd : s.detail with
  | method m =>
    obtain rfl : m.impl = impl := by simpa [hd] using himpl
    have hkind : (s.kind == .property) = false := by simp [Symbol.kind, hd, Detail.kind]
    rw [symbolUpTo_method_slot hs hd htarget, hkind, Bool.or_false]
  | property p =>
    obtain rfl : p.impl = impl := by simpa [hd] using himpl
    have hkind : (s.kind == .property) = true := by simp [Symbol.kind, hd, Detail.kind]
    rw [symbolUpTo_property_slot hs hd htarget, hkind, Bool.or_true]
  | _ => simp [hd] at himpl

/-- A method or property with a resolved slot comes to its aggregate as a type, a point and the
interface member in the context of the slot. -/
lemma finish_slot (h : scene.graph.Loaded) {id parent : SymId} {s : Symbol}
    (hs : scene.graph.find? id = some s) (hparent : s.parent = some parent) {inst : Inst}
    (hthis : scene.graph.thisInst? parent = some inst) {impl : ExplicitImpl}
    (himpl : s.impl? = some impl) {member : SymId} {on : Option Inst}
    (htarget : impl.target? = some (member, on)) (hon : ∀ ats ∈ on, ats.WellFormed scene.graph)
    {ctx : Option Context} (hctx : ∀ c ∈ ctx, c.WellFormed scene.graph) (args : Bool)
    (catalog : Catalog) :
    (scene.symbol id ctx args).finish catalog = (do
      let front ← (scene.type (.aggregate inst) ctx).finish catalog
      let name ← (scene.symbol member (some (slotContext on ctx))
        (args || s.kind == .property)).finish catalog
      return front ++ "." ++ name) := by
  obtain ⟨n, hn, hlarge⟩ := scene.walkBound_eq_succ
  have hle : n ≤ scene.walkBound := by omega
  have hslot : ∀ c ∈ some (slotContext on ctx), c.WellFormed scene.graph := by
    rintro _ ⟨rfl⟩
    exact .slotContext hon hctx
  have hmember : (scene.symbolUpTo n member (some (slotContext on ctx))
      (args || s.kind == .property)).finish catalog =
        (scene.symbol member (some (slotContext on ctx)) (args || s.kind == .property)).finish
          catalog :=
    (symbolUpTo_agrees h hlarge hle member hslot _).finish_eq catalog
  have hfront : (scene.instUpTo n (inst.subst ctx)).finish catalog =
      (scene.type (.aggregate inst) ctx).finish catalog :=
    finish_instUpTo h ctx catalog hlarge hle
  rw [symbol, hn, symbolUpTo_slot hs himpl htarget, hparent,
    enclosing_eq_instUpTo h.toNested (by omega) hthis, Rendering.finish_andThen,
    Rendering.finish_andThen, Rendering.finish_literal, hfront, hmember]
  simp only [bind_assoc, pure_bind]
  rfl

end Scene

namespace Document

/-- **A slot is seen through an instantiation as the interface member on the equally instantiated
interface.**

The context of a slot has the arguments of all levels of the interface under the outer context.  It
has the effect of the interface's own context followed by the outer one on every type of the member
whose parameters all belong to types and are covered by the interface.  So in an accepted document
the name of an explicit implementation, under every context or none, is that of its class under the
context, a point and the name of the interface member on the interface under the context; and if
one of the two fails, so does the implementation.

**Proof sketch.** The arguments of all levels are traversed one by one, whatever the nesting.  A
replacement by replaced arguments is one replacement after the other where all parameters are
covered. -/
theorem render_slot :
    (∀ (ats : Inst) (ctx : Option Context),
      (slotContext (some ats) ctx).same ⟨ats.argsAll.map (Ty.subst ctx), []⟩ = true) ∧
    (∀ (ats : Inst) (ctx : Option Context) (t : Ty), t.Below ats.argsAll.length →
      (t.subst (some (slotContext (some ats) ctx))).same
        ((t.subst (some (.ofInst (some ats) []))).subst ctx) = true) ∧
    ∀ (json : Json) (doc : Document), ofJson json = .ok doc →
      ∀ (display : Display) (r : Renderer), r.session.isOpen = false →
      ∀ (id member : SymId) (s : Symbol) (impl : ExplicitImpl) (ats : Inst),
        doc.graph.find? id = some s → s.impl? = some impl →
        impl.target? = some (member, some ats) →
      ∀ ctx : Option Context, (∀ c ∈ ctx, c.WellFormed doc.graph) →
      ∃ inst, s.parent.bind doc.graph.thisInst? = some inst ∧
        ∀ args, (r.render doc.graph display (.symbol (some id) ctx args)).1 = (do
          let front ← (r.render doc.graph display (.type (.aggregate inst) ctx)).1
          let name ← (r.render doc.graph display (.symbol (some member)
            (some (.ofInst (some (ats.subst ctx)) [])) (args || s.kind == .property))).1
          return front ++ "." ++ name) := by
  refine ⟨slotContext_same, fun ats ctx t ht => Ty.subst_slotContext ht ctx, ?_⟩
  intro json doc hdoc display r hr id member s impl ats hs himpl htarget ctx hctx
  have hloaded := (loaded_of_ofJson hdoc).graph
  obtain ⟨hspace, haggregate, hwell⟩ := hloaded.of_impl? hs himpl
  obtain ⟨parent, inst, hparent, hthis⟩ := hloaded.thisInst?_of_member hs hspace haggregate
  refine ⟨inst, by rw [hparent]; exact hthis, fun args => ?_⟩
  let scene : Scene := ⟨doc.graph, display.niceNames, r.memo.isBogus doc.graph⟩
  have hscene : scene.graph.Loaded := hloaded
  rw [Renderer.render_fst hr, Renderer.render_fst hr, Renderer.render_fst hr]
  exact Scene.finish_slot hscene hs hparent hthis himpl htarget (hwell.target htarget).2 hctx args
    display.catalog

/-- A method of an interface in a generic class, implemented for arguments of both levels. -/
theorem render_slot_nested :
    let json : Json := .obj [("declarations", .arr [
      .obj [("kind", .str "class"), ("name", .str "G"), ("type_params", .arr [.str "K"]),
        ("members", .arr [.obj [("kind", .str "interface"), ("name", .str "I"),
          ("type_params", .arr [.str "T"]), ("members", .arr [
            .obj [("kind", .str "method"), ("name", .str "M"),
              ("params", .arr [.str "T", .obj [("array", .str "K")]])]])]])],
      .obj [("kind", .str "class"), ("name", .str "C"), ("type_params", .arr [.str "X"]),
        ("members", .arr [.obj [("kind", .str "method"), ("name", .str "M"),
          ("explicit_impl", .obj [("type", .obj [("type", .str "G.I"), ("args", .arr [.str "X"]),
              ("outer", .obj [("type", .str "G"),
                ("args", .arr [.obj [("pointer", .str "X")]])])]),
            ("member", .str "G.I.M")])]])]])]
    ∃ doc id member s impl ats inst, ofJson json = .ok doc ∧
      ({} : Renderer).session.isOpen = false ∧ doc.graph.find? id = some s ∧
      s.impl? = some impl ∧ impl.target? = some (member, some ats) ∧
      (∀ c ∈ some (Context.mk [.void] []), c.WellFormed doc.graph) ∧
      (Ty.array (.param (.number 0) false (some "K")) (.number 1) true).Below ats.argsAll.length ∧
      (((Ty.array (.param (.number 0) false (some "K")) (.number 1) true).subst
          (some (slotContext (some ats) (some ⟨[.void], []⟩)))).same
        (((Ty.array (.param (.number 0) false (some "K")) (.number 1) true).subst
          (some (.ofInst (some ats) []))).subst (some ⟨[.void], []⟩)) = true) ∧
      (({} : Renderer).render doc.graph {} (.symbol (some id) (some ⟨[.void], []⟩) true)).1 = (do
        let front ← (({} : Renderer).render doc.graph {}
          (.type (.aggregate inst) (some ⟨[.void], []⟩))).1
        let name ← (({} : Renderer).render doc.graph {} (.symbol (some member)
          (some (.ofInst (some (ats.subst (some ⟨[.void], []⟩))) []))
            (true || s.kind == .property))).1
        return front ++ "." ++ name) ∧
      (({} : Renderer).render doc.graph {} (.symbol (some id) (some ⟨[.void], []⟩) true)).1 =
        .ok "C<void>.G<void*>.I<void>.M(void, void*[])" := by
  intro json
  obtain ⟨doc, id, member, s, impl, ats, hdoc, hs, himpl, htarget, hats, htext⟩ :
      ∃ doc id member s impl ats, ofJson json = .ok doc ∧ doc.graph.find? id = some s ∧
      s.impl? = some impl ∧ impl.target? = some (member, some ats) ∧ ats.argsAll.length = 2 ∧
      (({} : Renderer).render doc.graph {} (.symbol (some id) (some ⟨[.void], []⟩) true)).1 =
        .ok "C<void>.G<void*>.I<void>.M(void, void*[])" := by
    refine ⟨?doc, (SymId.root.child (.member "C" 0)).child (.member "M" 0), ?member, ?symbol, ?impl,
      ?ats, ?hdoc, ?hs, ?himpl, ?htarget, ?hats, ?htext⟩
    case hdoc => cbv; rfl
    case hs => cbv; rfl
    case himpl => rfl
    case htarget => rfl
    all_goals decide +kernel
  have hctx : ∀ c ∈ some (Context.mk [.void] []), c.WellFormed doc.graph := by
    rintro _ ⟨rfl⟩
    exact ⟨by simpa using .void, by simp⟩
  have hbelow :
      (Ty.array (.param (.number 0) false (some "K")) (.number 1) true).Below
        ats.argsAll.length := by
    intro i m n hp
    rw [hats]
    simp only [Ty.parts, List.mem_cons, reduceCtorEq, Ty.param.injEq, List.not_mem_nil, or_false,
      false_or] at hp
    obtain ⟨rfl, rfl, rfl⟩ := hp
    exact ⟨rfl, by decide⟩
  obtain ⟨_, hsubst, hslots⟩ := render_slot
  obtain ⟨inst, _, hrender⟩ :=
    hslots json doc hdoc {} {} rfl id member s impl ats hs himpl htarget _ hctx
  exact ⟨doc, id, member, s, impl, ats, inst, hdoc, rfl, hs, himpl, htarget, hctx, hbelow,
    hsubst ats _ _ hbelow, hrender true, htext⟩

end Document

end DisplayNames
