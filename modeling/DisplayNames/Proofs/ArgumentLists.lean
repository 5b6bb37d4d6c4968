import DisplayNames.Proofs.CallSequence
import DisplayNames.Proofs.LawfulTypes

/-!
# Argument lists

A symbol is displayed with or without the arguments of a method.  The flag that says so is handed on
along the slots of methods only: properties, owners of accessors and the symbols around a symbol
have a fixed one.  So it matters for the methods whose slots lead, from method to method, to one
that is displayed by itself.  With the flag they are displayed as without it, and behind that comes
a list in round brackets.

The types in the list are displayed under the context, and a type of the context that breaks the
invariants of its form is an error, which may be in the list alone.  Under contexts of lawful types
one of the two is an error exactly if the other one is, and the same error.

## Main definitions

* `DisplayNames.Graph.TakesArguments` — the methods that are displayed with arguments.

## Main results

* `DisplayNames.Scene.symbolUpTo_flag` — for all other symbols the flag does not matter.
* `DisplayNames.Scene.symbolUpTo_arguments` — what it adds to these methods.
* `DisplayNames.Document.render_arguments` — the two texts of a symbol.
-/

set_option relaxedAutoImplicit false
set_option autoImplicit false

namespace DisplayNames

/-- The methods that are displayed with arguments: those that are displayed by themselves, since
they have no slot and are no accessors, and those whose slot leads to such a method. -/
inductive Graph.TakesArguments (g : Graph) : SymId → Prop
  | own {id : SymId} {s : Symbol} {m : Method} : g.find? id = some s → s.detail = .method m →
    m.impl.target? = none → m.property = none → m.event = none → TakesArguments g id
  | slot {id : SymId} {s : Symbol} {m : Method} {member : SymId} {on : Option Inst} :
    g.find? id = some s → s.detail = .method m → m.impl.target? = some (member, on) →
      TakesArguments g member → TakesArguments g id

namespace Graph

variable {g : Graph} {id : SymId} {s : Symbol} (hs : g.find? id = some s)
include hs

/-- Only methods are displayed with arguments. -/
lemma TakesArguments.method (h : g.TakesArguments id) : ∃ m, s.detail = .method m := by
  cases h with
  | own hs' hd | slot hs' hd =>
    rw [hs, Option.some.injEq] at hs'
    exact ⟨_, hs' ▸ hd⟩

/-- A method is displayed with arguments if the member of its slot is or, without a slot, if it is
no accessor. -/
lemma takesArguments_iff {m : Method} (hd : s.detail = .method m) :
    g.TakesArguments id ↔ match m.impl.target? with
      | some (member, _) => g.TakesArguments member
      | none => m.property = none ∧ m.event = none := by
  constructor
  · intro h
    cases h with
    | own hs' hd' | slot hs' hd' =>
      rw [hs, Option.some.injEq] at hs'
      subst hs'
      rw [hd, Detail.method.injEq] at hd'
      subst hd'
      simp_all
  · intro h
    split at h
    · rename_i member on ht
      exact .slot hs hd ht h
    · rename_i ht
      exact .own hs hd ht h.1 h.2

end Graph

/-- The slots of a method that is displayed with arguments come to an end. -/
lemma Graph.TakesArguments.leads {g : Graph} {id : SymId} (h : g.TakesArguments id) :
    ∃ last, g.Leads id last := by
  induction h with
  | @own id s m hs hd ht hp =>
    exact ⟨id, 0, .here (by simp [Graph.next?_method hs hd, ht, hp])⟩
  | slot hs hd ht _ ih =>
    obtain ⟨last, links, hleads⟩ := ih
    exact ⟨last, links + 1, .next (by simp [Graph.next?_method hs hd, ht]) hleads⟩

namespace Scene

variable {scene : Scene}

/-- **The flag does not matter** for symbols that are no methods, for accessors, and for methods
whose slots lead to such symbols or to no end, whatever the context and the bound.

**Proof sketch.** Induction on the bound, along the cases of a step.  The flag only reaches the
next step through the slot of a method, and the member of that slot is not displayed with arguments
either; in all other cases the step does not pass it on. -/
theorem symbolUpTo_flag (bound : Nat) {id : SymId} (h : ¬ scene.graph.TakesArguments id)
    (ctx : Option Context) :
    scene.symbolUpTo bound id ctx true = scene.symbolUpTo bound id ctx false := by
  induction bound generalizing id ctx with
  | zero => rfl
  | succ bound ih =>
    cases hs : scene.graph.find? id with
    | none => rw [symbolUpTo_none hs, symbolUpTo_none hs]
    | some s =>
      cases hd : s.detail with
      | method m =>
        cases ht : m.impl.target? with
        | some target =>
          obtain ⟨member, on⟩ := target
          rw [symbolUpTo_method_slot hs hd ht, symbolUpTo_method_slot hs hd ht,
            ih fun hmember => h (.slot hs hd ht hmember)]
        | none =>
          cases hp : m.property with
          | some owner =>
            rw [symbolUpTo_method_property hs hd ht hp, symbolUpTo_method_property hs hd ht hp]
          | none =>
            cases he : m.event with
            | some owner =>
              rw [symbolUpTo_method_event hs hd ht hp he, symbolUpTo_method_event hs hd ht hp he]
            | none => exact absurd (.own hs hd ht hp he) h
      | _ => simp only [symbolUpTo_some hs, hd]

/-- **What the flag adds to a method that is displayed with arguments**: round brackets behind what
is displayed without the flag.  What is inside the brackets goes through, if symbols and types do
under the context.

**Proof sketch.** Induction on the chain, which consists of slots of methods alone.  The brackets
are the last thing that is displayed of its last method, and what stands in front of the methods on
the way comes before. -/
theorem symbolUpTo_arguments (h : scene.graph.Loaded) {P : Option Context → Prop}
    (hP : scene.Passes P) {links : Nat} {id last : SymId}
    (hleads : scene.graph.LeadsIn links id last) (htakes : scene.graph.TakesArguments id)
    {bound : Nat} (hb : scene.graph.size + links ≤ bound) (ctx : Option Context) :
    ∃ inside : Rendering, (P ctx → inside.stop = none) ∧
      scene.symbolUpTo (bound + 1) id ctx true =
        (scene.symbolUpTo (bound + 1) id ctx false >> .literal "(" >> inside >> .literal ")") := by
  induction hleads generalizing bound ctx with
  | @here id hnext =>
    cases htakes with
    | @own _ s m hs hd ht hp he =>
      have hsize : scene.graph.size ≤ bound := by omega
      refine ⟨.examine id >> (if scene.bogus id then .empty else
        paramList (scene.typeUpTo bound ctx) m.params m.varargs m.paramArray), fun hctx => ?_, ?_⟩
      · have hstop := stop_methodArguments (fun _ => hP.type hctx hsize) id (h.method hs hd).params
        simpa [methodArguments] using hstop
      · rw [symbolUpTo_method hs hd ht hp he, symbolUpTo_method hs hd ht hp he]
        simp [methodArguments, Rendering.andThen_assoc]
    | slot hs hd ht => simp [Graph.next?_method hs hd, ht] at hnext
  | @next links id id' last hnext _ ih =>
    obtain ⟨bound, rfl⟩ : ∃ n, bound = n + 1 := ⟨bound - 1, by omega⟩
    cases htakes with
    | own hs hd ht hp => simp [Graph.next?_method hs hd, ht, hp] at hnext
    | @slot _ s m member on hs hd ht hmember =>
      obtain rfl : member = id' := by simpa [Graph.next?_method hs hd, ht] using hnext
      obtain ⟨inside, hinside, heq⟩ := ih hmember
        (by omega : scene.graph.size + links ≤ bound) (some (slotContext on ctx))
      refine ⟨inside, fun hctx => hinside (hP.slot hctx ((h.method hs hd).impl.target ht).2), ?_⟩
      rw [symbolUpTo_method_slot hs hd ht, symbolUpTo_method_slot hs hd ht, heq,
        Rendering.andThen_assoc]

end Scene

/-! ## Texts -/

/-- What round brackets behind a rendering add to its text. -/
lemma Rendering.finish_parenthesized (front inside : Rendering) (catalog : Catalog) :
    (front >> .literal "(" >> inside >> .literal ")").finish catalog = (do
      let text ← front.finish catalog
      let arguments ← (inside.finish catalog).map fun text => "(" ++ text ++ ")"
      return text ++ arguments) := by
  rw [finish_andThen, finish_andThen, finish_andThen, finish_literal, finish_literal]
  cases front.finish catalog <;> cases inside.finish catalog <;>
    simp [bind, Except.bind, pure, Except.pure, Except.map, String.append_assoc]

/-- **What the flag adds to the text of a symbol**: a list in round brackets, which may be an error,
for a method that is displayed with arguments, and nothing for any other symbol. -/
lemma Scene.finish_symbol_arguments {scene : Scene} (h : scene.graph.Loaded)
    {P : Option Context → Prop} (hP : scene.Passes P) {id : SymId} {s : Symbol}
    (hs : scene.graph.find? id = some s) (ctx : Option Context) (catalog : Catalog) :
    ∃ suffix : Except Fault String,
      (scene.symbol id ctx true).finish catalog = (do
        let text ← (scene.symbol id ctx false).finish catalog
        let arguments ← suffix
        return text ++ arguments) ∧
      (scene.graph.TakesArguments id → ∀ text, suffix = .ok text →
        ∃ inside, text = "(" ++ inside ++ ")") ∧
      (¬ scene.graph.TakesArguments id → suffix = .ok "") ∧
      (P ctx → ∃ text, suffix = .ok text) := by
  by_cases htakes : scene.graph.TakesArguments id
  · obtain ⟨last, links, hleads⟩ := htakes.leads
    have hlt := hleads.lt_size h hs
    obtain ⟨inside, hinside, heq⟩ := symbolUpTo_arguments h hP hleads htakes
      (by omega : scene.graph.size + links ≤ 2 * scene.graph.size + 999) ctx
    refine ⟨(inside.finish catalog).map fun text => "(" ++ text ++ ")", ?_, fun _ text htext => ?_,
      fun hnot => absurd htakes hnot, fun hctx => ?_⟩
    · rw [← Rendering.finish_parenthesized]
      exact congrArg (Rendering.finish · catalog) heq
    · obtain ⟨inside, _, rfl⟩ := map_eq_ok.1 htext
      exact ⟨inside, rfl⟩
    · have hfinish := (Rendering.finish_eq_ok_iff inside catalog _).2 ⟨hinside hctx, rfl⟩
      exact ⟨_, map_eq_ok.2 ⟨_, hfinish, rfl⟩⟩
  · refine ⟨.ok "", ?_, fun hyes => absurd hyes htakes, fun _ => rfl, fun _ => ⟨"", rfl⟩⟩
    rw [symbol, symbol, symbolUpTo_flag _ htakes]
    cases (scene.symbolUpTo scene.walkBound id ctx false).finish catalog <;>
      simp [bind, Except.bind, pure, Except.pure]

namespace Document

/-- **The argument flag controls an argument list at the end and nothing else.**  With the flag a
symbol of an accepted document is displayed as without it, and behind that comes what is empty
unless the symbol is a method that is displayed with arguments, and a list in round brackets if it
is one.

If the types of the context keep their invariants, wherever they come from, the list is always
there: either both are the same error, which is one of the renderer if the chain of slots from the
symbol ends, or both are texts.  Otherwise the list can be an error by itself.

**Proof sketch.** The walk that is followed by the renderer was taken apart in
`Scene.finish_symbol_arguments`.  For lawful types the list comes to a text, so a fault is one of
what stands in front of it, and `Scene.stop_of_chain` says which one. -/
theorem render_arguments {json : Json} {doc : Document} (hdoc : ofJson json = .ok doc)
    (display : Display) {r r' : Renderer} (hr : r.session.isOpen = false)
    (hr' : r'.session.isOpen = false) (hm : r.memo.Sound doc.graph) (hm' : r'.memo.Sound doc.graph)
    {id : SymId} {s : Symbol} (hs : doc.graph.find? id = some s) (ctx : Option Context) :
    (∃ suffix : Except Fault String,
      (r.render doc.graph display (.symbol (some id) ctx true)).1 = (do
        let text ← (r'.render doc.graph display (.symbol (some id) ctx false)).1
        let arguments ← suffix
        return text ++ arguments) ∧
      (doc.graph.TakesArguments id → ∀ text, suffix = .ok text →
        ∃ inside, text = "(" ++ inside ++ ")") ∧
      (¬ doc.graph.TakesArguments id → suffix = .ok "")) ∧
    ((∀ c ∈ ctx, c.Lawful doc.graph) →
      (∃ fault, (r.render doc.graph display (.symbol (some id) ctx true)).1 = .error fault ∧
        (r'.render doc.graph display (.symbol (some id) ctx false)).1 = .error fault ∧
        ∀ last, doc.graph.Leads id last → ∃ error, fault = .broken error) ∨
      ∃ text suffix,
        (r.render doc.graph display (.symbol (some id) ctx true)).1 = .ok (text ++ suffix) ∧
        (r'.render doc.graph display (.symbol (some id) ctx false)).1 = .ok text ∧
        (doc.graph.TakesArguments id → ∃ inside, suffix = "(" ++ inside ++ ")") ∧
        (¬ doc.graph.TakesArguments id → suffix = "")) := by
  have hloaded := (loaded_of_ofJson hdoc).graph
  let scene : Scene := ⟨doc.graph, display.niceNames, r'.memo.isBogus doc.graph⟩
  have hP : scene.Passes fun ctx => ∀ c ∈ ctx, c.Lawful scene.graph :=
    Scene.passes_lawful hloaded.toNested
  obtain ⟨suffix, hadds, htakes, hother, hlawful⟩ :=
    Scene.finish_symbol_arguments hloaded hP hs ctx display.catalog
  have hflag (args : Bool) : (r'.render doc.graph display (.symbol (some id) ctx args)).1 =
      (scene.symbol id ctx args).finish display.catalog := Renderer.render_fst hr' ..
  rw [Renderer.render_fst_eq r r' hr hr' hm hm', hflag, hflag]
  refine ⟨⟨suffix, hadds, htakes, hother⟩, fun hctx => ?_⟩
  obtain ⟨text, rfl⟩ := hlawful hctx
  cases hplain : (scene.symbol id ctx false).finish display.catalog with
  | error fault =>
    rw [hplain] at hadds
    refine .inl ⟨fault, hadds, rfl, fun last ⟨links, hleads⟩ => ?_⟩
    have hlt : links < scene.graph.size := hleads.lt_size hloaded hs
    have hstop := (Rendering.finish_eq_error_iff _ _ _).1 hplain
    obtain ⟨error, hfault, _⟩ :=
      (Scene.stop_of_chain hloaded hP hctx false hleads (by omega) hs fault).1 hstop
    exact ⟨error, hfault⟩
  | ok front =>
    rw [hplain] at hadds
    exact .inr ⟨front, text, hadds, rfl, fun h => htakes h text rfl,
      fun h => Except.ok.inj (hother h)⟩

/-- An explicit implementation of a method and one whose slot is a property, under a context that
puts a pointer in the place of the class parameter: the first one has its arguments behind the text
without them, the second one has the same text with and without the flag. -/
theorem render_arguments_slot :
    let on : Json := .obj [("type", .str "I"), ("args", .arr [.str "T"])]
    let json : Json := .obj [("declarations", .arr [
      .obj [("kind", .str "interface"), ("name", .str "I"), ("type_params", .arr [.str "T"]),
        ("members", .arr [
          .obj [("kind", .str "method"), ("name", .str "M"), ("params", .arr [.str "T"])],
          .obj [("kind", .str "property"), ("name", .str "P")]])],
      .obj [("kind", .str "class"), ("name", .str "C"), ("type_params", .arr [.str "T"]),
        ("members", .arr [
          .obj [("kind", .str "method"), ("name", .str "M"),
            ("explicit_impl", .obj [("member", .str "I.M"), ("type", on)])],
          .obj [("kind", .str "method"), ("name", .str "N"),
            ("explicit_impl", .obj [("member", .str "I.P"), ("type", on)])]])]]),
      ("render", .arr [])]
    let ctx : Context := ⟨[.pointer .void], []⟩
    ∃ doc m n, ofJson json = .ok doc ∧ ctx.Lawful doc.graph ∧ doc.graph.TakesArguments m ∧
      ¬ doc.graph.TakesArguments n ∧
      (∃ text inside,
        (({} : Renderer).render doc.graph {} (.symbol (some m) (some ctx) true)).1 =
          .ok (text ++ ("(" ++ inside ++ ")")) ∧
        (({} : Renderer).render doc.graph {} (.symbol (some m) (some ctx) false)).1 = .ok text) ∧
      (({} : Renderer).render doc.graph {} (.symbol (some m) (some ctx) true)).1 =
        .ok "C<void*>.I<void*>.M(void*)" ∧
      (({} : Renderer).render doc.graph {} (.symbol (some n) (some ctx) true)).1 =
        (({} : Renderer).render doc.graph {} (.symbol (some n) (some ctx) false)).1 := by
  intro on json ctx
  obtain ⟨doc, m, n, sm, sn, hdoc, hm, hn, htakes, hother, htext⟩ :
      ∃ doc m n sm sn, ofJson json = .ok doc ∧ doc.graph.find? m = some sm ∧
        doc.graph.find? n = some sn ∧ doc.graph.TakesArguments m ∧
        ¬ doc.graph.TakesArguments n ∧
        (({} : Renderer).render doc.graph {} (.symbol (some m) (some ctx) true)).1 =
          .ok "C<void*>.I<void*>.M(void*)" := by
    refine ⟨?doc, (SymId.root.child (.member "C" 0)).child (.member "M" 0),
      (SymId.root.child (.member "C" 0)).child (.member "N" 0), ?sm, ?sn, ?hdoc, ?hm, ?hn,
      ?htakes, ?hother, ?htext⟩
    case hdoc => cbv; rfl
    case hm => cbv; rfl
    case hn => cbv; rfl
    case htakes => exact .slot rfl rfl rfl (.own rfl rfl rfl rfl rfl)
    case hother =>
      intro h
      obtain ⟨_, hmethod⟩ :=
        Graph.TakesArguments.method rfl ((Graph.takesArguments_iff rfl rfl).1 h)
      cases hmethod
    case htext => decide +kernel
  have hctx : ctx.Lawful doc.graph :=
    Context.WellFormed.lawful ⟨by simpa [ctx] using Ty.WellFormed.pointer .void, by simp [ctx]⟩
  have hctx' : ∀ c ∈ some ctx, c.Lawful doc.graph := by simpa using hctx
  have hclosed : ({} : Renderer).session.isOpen = false := rfl
  have hsound : ({} : Renderer).memo.Sound doc.graph := .empty _
  refine ⟨doc, m, n, hdoc, hctx, htakes, hother, ?_, htext, ?_⟩
  · rcases (render_arguments hdoc {} hclosed hclosed hsound hsound hm (some ctx)).2 hctx' with
      ⟨fault, hfault, _⟩ | ⟨text, suffix, hfull, hplain, hbrackets, _⟩
    · rw [htext] at hfault
      cases hfault
    · obtain ⟨inside, rfl⟩ := hbrackets htakes
      exact ⟨text, inside, hfull, hplain⟩
  · rcases (render_arguments hdoc {} hclosed hclosed hsound hsound hn (some ctx)).2 hctx' with
      ⟨fault, hfull, hplain, _⟩ | ⟨text, suffix, hfull, hplain, _, hnone⟩
    · rw [hfull, hplain]
    · rw [hfull, hplain, hnone hother, String.append_empty]

/-- A method with a parameter for which the context has an unresolved type with a parent and no
name: its argument list is an error, and nothing else of it. -/
theorem render_arguments_unlawful :
    let json : Json := .obj [("declarations", .arr [.obj [("kind", .str "class"),
      ("name", .str "C"), ("members", .arr [.obj [("kind", .str "method"), ("name", .str "M"),
        ("params", .arr [.obj [("param", .int 0)]])]])]])]
    let ctx : Context := ⟨[.error (some .void) none none none], []⟩
    ∃ doc id s, ofJson json = .ok doc ∧ doc.graph.find? id = some s ∧
      (∃ last, doc.graph.Leads id last) ∧
      (({} : Renderer).render doc.graph {} (.symbol (some id) (some ctx) true)).1 =
        .error (.broken .errorTypeIncomplete) ∧
      (({} : Renderer).render doc.graph {} (.symbol (some id) (some ctx) false)).1 = .ok "C.M" ∧
      ¬ ((∃ fault,
          (({} : Renderer).render doc.graph {} (.symbol (some id) (some ctx) true)).1 =
            .error fault ∧
          (({} : Renderer).render doc.graph {} (.symbol (some id) (some ctx) false)).1 =
            .error fault) ∨
        ∃ text suffix,
          (({} : Renderer).render doc.graph {} (.symbol (some id) (some ctx) true)).1 =
            .ok (text ++ suffix) ∧
          (({} : Renderer).render doc.graph {} (.symbol (some id) (some ctx) false)).1 =
            .ok text) := by
  intro json ctx
  obtain ⟨doc, id, s, hdoc, hs, hleads, hfull, hplain⟩ :
      ∃ doc id s, ofJson json = .ok doc ∧ doc.graph.find? id = some s ∧
        (∃ last, doc.graph.Leads id last) ∧
        (({} : Renderer).render doc.graph {} (.symbol (some id) (some ctx) true)).1 =
          .error (.broken .errorTypeIncomplete) ∧
        (({} : Renderer).render doc.graph {} (.symbol (some id) (some ctx) false)).1 =
          .ok "C.M" := by
    refine ⟨?doc, (SymId.root.child (.member "C" 0)).child (.member "M" 0), ?s, ?hdoc, ?hs,
      ⟨_, 0, .here ?hlast⟩, ?hfull, ?hplain⟩
    case hdoc => cbv; rfl
    case hs => cbv; rfl
    case hlast => rfl
    case hfull => decide +kernel
    case hplain => decide +kernel
  refine ⟨doc, id, s, hdoc, hs, hleads, hfull, hplain, ?_⟩
  rw [hfull, hplain]
  rintro (⟨fault, _, hfault⟩ | ⟨text, suffix, htext, _⟩)
  · cases hfault
  · cases htext

end Document

end DisplayNames
