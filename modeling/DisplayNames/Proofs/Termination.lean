import DisplayNames.Proofs.RunReports
import Mathlib.Data.Set.Finite.Basic
import Mathlib.Logic.Relation

/-!
# Termination

Symbols and types are displayed by one walk over a graph that is full of cycles: members and
parents, owners and accessors, types that mention the class around them, and contexts whose types
mention the parameters that they replace.  Two relations alone lead the walk from a symbol to
another one that is displayed in its place, from an explicit implementation to the member of its
slot and from the accessor of a property to the property.  Where these have no cycle every walk
ends, within a depth that depends on the graph only; where they have one, the walk from a symbol on
it does not.

## Main definitions

* `DisplayNames.Graph.Link` — the symbol that is displayed in the place of another one.
* `DisplayNames.Graph.Acyclic` — the links have no cycle.
* `DisplayNames.Graph.linksUpTo` — the length of a chain.
* `DisplayNames.Subject.walkUpTo` — the walk for a subject, with a bound.

## Main results

* `DisplayNames.Graph.Loaded.leads_of_acyclic` — without cycles every chain ends.
* `DisplayNames.Graph.Loaded.acyclic_iff_linksUpTo` — cycles can be looked for.
* `DisplayNames.Subject.Loaded.walkUpTo_agrees` — all large bounds give the same.
* `DisplayNames.Document.render_terminates` — the walks of an accepted document without cycles end.
* `DisplayNames.Document.acyclic_iff` — they all end only if there is no cycle.
-/

set_option relaxedAutoImplicit false
set_option autoImplicit false

namespace DisplayNames

namespace Graph

variable {g : Graph}

/-! ## Links -/

/-- The links from a symbol to another one: from a method or property with a resolved slot to the
member of the slot, and from an accessor of a property to the property. -/
inductive Link (g : Graph) (id : SymId) : SymId → Prop
  | method {s : Symbol} {m : Method} {member : SymId} {on : Option Inst} : g.find? id = some s →
    s.detail = .method m → m.impl.target? = some (member, on) → Link g id member
  | property {s : Symbol} {p : Property} {member : SymId} {on : Option Inst} :
    g.find? id = some s → s.detail = .property p → p.impl.target? = some (member, on) →
      Link g id member
  | accessor {s : Symbol} {m : Method} {owner : SymId} : g.find? id = some s →
    s.detail = .method m → m.property = some owner → Link g id owner

/-- No symbol is reached from itself along links. -/
def Acyclic (g : Graph) : Prop := ∀ id, ¬ Relation.TransGen g.Link id id

/-- In a loaded graph an accessor has no slot, so the links are those that the walk follows.

**Proof sketch.** A case for each kind of symbol with links.  An accessor of a property implements
nothing explicitly, so it has one link and not two. -/
lemma Loaded.link_iff (h : g.Loaded) {id id' : SymId} : g.Link id id' ↔ g.next? id = some id' := by
  constructor
  · rintro (⟨hs, hd, ht⟩ | ⟨hs, hd, ht⟩ | ⟨hs, hd, hp⟩)
    · simp [next?_method hs hd, ht]
    · simp [next?_property hs hd, ht]
    · have himpl := ((h.method hs hd).property hp).1
      simp [next?_method hs hd, hp, himpl, ExplicitImpl.target?]
  · intro hnext
    cases hs : g.find? id with
    | none => simp [next?, hs] at hnext
    | some s =>
      cases hd : s.detail with
      | method m =>
        rw [next?_method hs hd, Option.or_eq_some_iff] at hnext
        obtain htarget | ⟨_, howner⟩ := hnext
        · obtain ⟨⟨member, on⟩, ht, rfl⟩ := Option.map_eq_some_iff.1 htarget
          exact .method hs hd ht
        · exact .accessor hs hd howner
      | property p =>
        rw [next?_property hs hd] at hnext
        obtain ⟨⟨member, on⟩, ht, rfl⟩ := Option.map_eq_some_iff.1 hnext
        exact .property hs hd ht
      | _ => simp [next?, hs, hd] at hnext

/-! ## Cycles -/

/-- The symbols of a graph. -/
def Known (g : Graph) : Type := {id : SymId // ∃ s, g.find? id = some s}

/-- A graph has finitely many symbols. -/
instance : Finite g.Known := by
  refine Set.Finite.to_subtype ((g.symbols.map Prod.fst).finite_toSet.subset ?_)
  rintro id ⟨s, hs⟩
  exact List.mem_map.2 ⟨(id, s), Table.mem_of_get? hs, rfl⟩

/-- Without cycles the links between the symbols of a graph are well-founded: a graph is finite, so
a chain without an end would come back to one of its symbols. -/
lemma Acyclic.wellFounded (h : g.Acyclic) :
    WellFounded fun next id : g.Known => g.Link id.1 next.1 := by
  let reached (next id : g.Known) : Prop := Relation.TransGen g.Link id.1 next.1
  have : IsTrans g.Known reached := ⟨fun _ _ _ hab hbc => hbc.trans hab⟩
  have : Std.Irrefl reached := ⟨fun id => h id.1⟩
  have hwf : WellFounded reached := Finite.wellFounded_of_trans_of_irrefl reached
  exact Subrelation.wf (fun hlink => Relation.TransGen.single hlink) hwf

/-- **Without cycles every chain ends.** -/
theorem Loaded.leads_of_acyclic (hg : g.Loaded) (h : g.Acyclic) {id : SymId} {s : Symbol}
    (hs : g.find? id = some s) : ∃ last, g.Leads id last := by
  suffices hknown : ∀ id : g.Known, ∃ last, g.Leads id.1 last from hknown ⟨id, s, hs⟩
  intro id
  induction id using h.wellFounded.induction with
  | h id ih =>
    cases hnext : g.next? id.1 with
    | none => exact ⟨id.1, 0, .here hnext⟩
    | some id' =>
      obtain ⟨last, links, hleads⟩ := ih ⟨id', hg.next?_known hnext⟩ (hg.link_iff.2 hnext)
      exact ⟨last, links + 1, .next hnext hleads⟩

/-- The chain from a symbol that is reached along links ends where the whole chain does, after fewer
links. -/
lemma Loaded.leadsIn_of_transGen (hg : g.Loaded) {id id' : SymId}
    (hreach : Relation.TransGen g.Link id id') {links : Nat} {last : SymId}
    (h : g.LeadsIn links id last) : ∃ n < links, g.LeadsIn n id' last := by
  have hlink {a b : SymId} {n : Nat} (hab : g.Link a b) (ha : g.LeadsIn n a last) :
      ∃ m < n, g.LeadsIn m b last := by
    have hnext := hg.link_iff.1 hab
    cases ha with
    | here hnone =>
      rw [hnone] at hnext
      cases hnext
    | next hsome hrest =>
      rw [hnext, Option.some.injEq] at hsome
      exact ⟨_, Nat.lt_succ_self _, hsome ▸ hrest⟩
  induction hreach with
  | single hab => exact hlink hab h
  | tail _ hbc ih =>
    obtain ⟨m, hm, hmid⟩ := ih
    obtain ⟨n, hn, hlast⟩ := hlink hbc hmid
    exact ⟨n, hn.trans hm, hlast⟩

/-- The chain from a symbol on a cycle has no end: it would be shorter than itself. -/
lemma Loaded.not_leads_of_cycle (hg : g.Loaded) {id : SymId}
    (hcycle : Relation.TransGen g.Link id id) (last : SymId) : ¬ g.Leads id last := by
  rintro ⟨links, hleads⟩
  obtain ⟨n, hn, hleads'⟩ := hg.leadsIn_of_transGen hcycle hleads
  have heq := (hleads.unique hleads').1
  omega

/-- A symbol on a cycle is a symbol of the graph. -/
lemma known_of_cycle {id : SymId} (hcycle : Relation.TransGen g.Link id id) :
    ∃ s, g.find? id = some s := by
  obtain ⟨next, hlink, _⟩ := Relation.TransGen.head'_iff.1 hcycle
  obtain ⟨hs, _, _⟩ | ⟨hs, _, _⟩ | ⟨hs, _, _⟩ := hlink <;> exact ⟨_, hs⟩

/-- The number of links on the chain from a symbol, which is followed for `bound` links at most. -/
def linksUpTo (g : Graph) : (bound : Nat) → SymId → Nat
  | 0, _ => 0
  | bound + 1, id =>
    match g.next? id with
    | none => 0
    | some next => g.linksUpTo bound next + 1

/-- A chain that is not followed for all links has come to its end. -/
lemma leadsIn_of_linksUpTo_lt {bound : Nat} {id : SymId} (h : g.linksUpTo bound id < bound) :
    ∃ last, g.LeadsIn (g.linksUpTo bound id) id last := by
  induction bound generalizing id with
  | zero => omega
  | succ bound ih =>
    cases hnext : g.next? id with
    | none =>
      rw [linksUpTo, hnext]
      exact ⟨id, .here hnext⟩
    | some next =>
      rw [linksUpTo, hnext] at h ⊢
      obtain ⟨last, hleads⟩ := ih (Nat.lt_of_succ_lt_succ h)
      exact ⟨last, .next hnext hleads⟩

/-- A chain that ends is followed to its end if the bound allows for it. -/
lemma LeadsIn.linksUpTo_eq {links bound : Nat} {id last : SymId} (h : g.LeadsIn links id last)
    (hb : links < bound) : g.linksUpTo bound id = links := by
  induction h generalizing bound with
  | here hnone =>
    obtain ⟨bound, rfl⟩ : ∃ n, bound = n + 1 := ⟨bound - 1, by omega⟩
    rw [linksUpTo, hnone]
  | next hsome _ ih =>
    obtain ⟨bound, rfl⟩ : ∃ n, bound = n + 1 := ⟨bound - 1, by omega⟩
    rw [linksUpTo, hsome]
    exact congrArg (· + 1) (ih (by omega))

/-- **Cycles can be looked for**: there is none exactly if no chain has as many links as there are
symbols.

**Proof sketch.** In an acyclic graph every chain ends, and a chain that ends passes no symbol
twice.  On a cycle no chain ends, but one with fewer links than the bound would have. -/
theorem Loaded.acyclic_iff_linksUpTo (hg : g.Loaded) :
    g.Acyclic ↔ ∀ e ∈ g.symbols, g.linksUpTo g.size e.1 < g.size := by
  constructor
  · rintro h ⟨id, s⟩ hmem
    cases hs : g.find? id with
    | none =>
      have hnext : g.next? id = none := by rw [next?, hs]; rfl
      have hpos : 0 < g.size := List.length_pos_of_mem hmem
      obtain ⟨n, hn⟩ : ∃ n, g.size = n + 1 := ⟨g.size - 1, by omega⟩
      rw [hn, linksUpTo, hnext]
      exact Nat.succ_pos n
    | some s =>
      obtain ⟨last, links, hleads⟩ := hg.leads_of_acyclic h hs
      have hlt := hleads.lt_size hg hs
      rwa [hleads.linksUpTo_eq hlt]
  · intro h id hcycle
    obtain ⟨s, hs⟩ := known_of_cycle hcycle
    obtain ⟨last, hleads⟩ := leadsIn_of_linksUpTo_lt (h (id, s) (Table.mem_of_get? hs))
    exact hg.not_leads_of_cycle hcycle last ⟨_, hleads⟩

end Graph

/-! ## Walks -/

/-- The walk for a subject that displays no more than `bound` symbols inside each other. -/
def Subject.walkUpTo (scene : Scene) (bound : Nat) : Subject → Rendering
  | .symbol none _ _ => .fail (.badSymbolKind none)
  | .symbol (some id) ctx args => scene.symbolUpTo bound id ctx args
  | .type t ctx => scene.typeUpTo bound ctx t

/-- The walk of a renderer is one of the bounded walks. -/
lemma Subject.rendering_eq_walkUpTo (scene : Scene) (subject : Subject) :
    subject.rendering scene = subject.walkUpTo scene scene.walkBound := by
  cases subject with
  | symbol id ctx args => cases id <;> rfl
  | type t ctx => rfl

/-- **All bounds above twice the size of a loaded graph agree**, for everything that can be asked
for. -/
theorem Subject.Loaded.walkUpTo_agrees {scene : Scene} {subject : Subject}
    (hsubject : subject.Loaded scene.graph) (hg : scene.graph.Loaded) {bound bound' : Nat}
    (hb : 2 * scene.graph.size < bound) (hle : bound ≤ bound') :
    (subject.walkUpTo scene bound).Agrees (subject.walkUpTo scene bound') := by
  cases subject with
  | symbol id ctx args =>
    cases id with
    | none => exact .inl rfl
    | some id => exact Scene.symbolUpTo_agrees hg hb hle id hsubject.2 args
  | type t ctx =>
    have hplain (parent : SymId) :
        (scene.plainUpTo bound parent).Agrees (scene.plainUpTo bound' parent) :=
      Scene.symbolUpTo_agrees hg hb hle parent (by simp) true
    exact renderTy_congr scene Rendering.Agrees.congruence
      (scene.around_congr Rendering.Agrees.congruence hplain) (t.subst ctx)

/-- Rendering a subject terminates: whatever texts and names are in use and whatever happened
before, there is a text or an error of the renderer; and if the renderer is not in the middle of
another text, then every walk that may display more than twice as many symbols inside each other as
there are symbols comes to this, so that nothing depends on the bound of the walk. -/
def Subject.Terminates (g : Graph) (subject : Subject) : Prop :=
  ∀ (display : Display) (r : Renderer), ∃ result : Except RenderError String,
    (r.render g display subject).1 = result.mapError .broken ∧
      (r.session.isOpen = false → ∀ bound, 2 * g.size < bound →
        (subject.walkUpTo ⟨g, display.niceNames, r.memo.isBogus g⟩ bound).finish display.catalog =
          result.mapError .broken)

/-- Whatever is not endless is a text or an error of the renderer. -/
lemma exists_eq_mapError {outcome : Except Fault String} (h : outcome ≠ .error .endless) :
    ∃ result : Except RenderError String, outcome = result.mapError .broken := by
  cases outcome with
  | ok text => exact ⟨.ok text, rfl⟩
  | error fault =>
    cases fault with
    | broken error => exact ⟨.error error, rfl⟩
    | endless => exact absurd rfl h

/-- Rendering a subject of a loaded graph terminates exactly if its chain ends.

**Proof sketch.** If the chain does not end, every call ends in the fault of an endless walk, so
there is no result.  If it ends, the walk gives the same for all bounds that exceed twice the size
of the graph, and the bound of the renderer does. -/
lemma Subject.Loaded.terminates_iff {g : Graph} {subject : Subject}
    (hsubject : subject.Loaded g) (hg : g.Loaded) : subject.Terminates g ↔ subject.Ends g := by
  constructor
  · intro h
    by_contra hnot
    obtain ⟨result, hresult, _⟩ := h {} {}
    rw [(hsubject.endless_iff hg {} rfl).2 hnot] at hresult
    cases result <;> cases hresult
  · intro hends display r
    cases hr : r.session.isOpen with
    | true =>
      refine ⟨.error .sessionInProgress, ?_, fun hclosed => by cases hclosed⟩
      rw [Renderer.render, if_pos hr]
      rfl
    | false =>
      have hended : (r.render g display subject).1 ≠ .error .endless := fun hendless =>
        (hsubject.endless_iff hg display hr).1 hendless hends
      obtain ⟨result, hresult⟩ := exists_eq_mapError hended
      refine ⟨result, hresult, fun _ bound hbound => ?_⟩
      let scene : Scene := ⟨g, display.niceNames, r.memo.isBogus g⟩
      have hscene : scene.graph.Loaded := hg
      have hwalk : 2 * scene.graph.size < scene.walkBound := by unfold Scene.walkBound; omega
      rw [← hresult, Renderer.render_fst hr, rendering_eq_walkUpTo]
      rcases Nat.le_total bound scene.walkBound with hle | hle
      · exact (hsubject.walkUpTo_agrees hscene hbound hle).finish_eq display.catalog
      · exact ((hsubject.walkUpTo_agrees hscene hwalk hle).finish_eq display.catalog).symm

/-- Without cycles the chain of every subject ends. -/
lemma Subject.Loaded.ends_of_acyclic {g : Graph} {subject : Subject}
    (hsubject : subject.Loaded g) (hg : g.Loaded) (hacyclic : g.Acyclic) : subject.Ends g := by
  cases subject with
  | symbol id ctx args =>
    cases id with
    | none => exact hsubject.elim
    | some id =>
      obtain ⟨⟨s, hs⟩, _⟩ := hsubject
      exact hg.leads_of_acyclic hacyclic hs
  | type t ctx => trivial

/-! ## Accepted documents -/

namespace Document

/-- **The walks of an accepted document without cycles end.**  This holds for its requests, for
every symbol and type of its graph under every context of such types, and so for all that types and
contexts written against the document can mean.  The contexts may mention the parameters that they
replace.

**Proof sketch.** Links between the finitely many symbols of a graph are well-founded if they have
no cycle, so every chain ends.  A chain that ends is shorter than the graph, and from its end the
walk only goes outwards. -/
theorem render_terminates {json : Json} {doc : Document} (hdoc : ofJson json = .ok doc)
    (hacyclic : doc.graph.Acyclic) :
    (∀ subject : Subject, subject.Loaded doc.graph → subject.Terminates doc.graph) ∧
    (∀ request ∈ doc.requests, request.subject.Terminates doc.graph) ∧
    ∀ fields ctx, readContext ⟨doc.graph, doc.registry⟩ fields = .ok ctx →
      (∀ id s args, doc.graph.find? id = some s →
        (Subject.symbol (some id) ctx args).Terminates doc.graph) ∧
      ∀ value t, resolve ⟨doc.graph, doc.registry⟩ [] value = .ok t →
        (Subject.type t ctx).Terminates doc.graph := by
  have hloaded := loaded_of_ofJson hdoc
  have hnames : Names.Sound ⟨doc.graph, doc.registry⟩ := ⟨hloaded.graph.toNested, hloaded.known⟩
  have hall (subject : Subject) (hsubject : subject.Loaded doc.graph) :
      subject.Terminates doc.graph :=
    (hsubject.terminates_iff hloaded.graph).2 (hsubject.ends_of_acyclic hloaded.graph hacyclic)
  refine ⟨hall, fun request hrequest => hall _ (hloaded.requests request hrequest),
    fun fields ctx hctx => ?_⟩
  have hctx := readContext_wellFormed hnames hctx
  exact ⟨fun id s args hs => hall (.symbol (some id) ctx args) ⟨⟨s, hs⟩, hctx⟩,
    fun value t ht => hall (.type t ctx) ⟨resolve_wellFormed hnames (by simp) ht, hctx⟩⟩

/-- A class that implements a method and a property of an interface over itself, so that types,
slots and accessors lead back to it, under contexts that put the class over its own parameter in the
place of that parameter. -/
theorem render_terminates_recursive :
    ∃ doc, ofJson (.obj
        [("declarations", .arr [
          .obj [("kind", .str "interface"), ("name", .str "I"), ("type_params", .arr [.str "T"]),
            ("members", .arr [
              .obj [("kind", .str "method"), ("name", .str "M"), ("params", .arr [.str "T"])],
              .obj [("kind", .str "property"), ("name", .str "P")]])],
          .obj [("kind", .str "class"), ("name", .str "C"), ("type_params", .arr [.str "T"]),
            ("members", .arr [
              .obj [("kind", .str "method"), ("name", .str "M"),
                ("explicit_impl", .obj [("member", .str "I.M"),
                  ("type", .obj [("type", .str "I"),
                    ("args", .arr [.obj [("type", .str "C"), ("args", .arr [.str "T"])]])])])],
              .obj [("kind", .str "property"), ("name", .str "P"), ("getter", .bool true),
                ("explicit_impl", .obj [("member", .str "I.P"),
                  ("type", .obj [("type", .str "I"), ("args", .arr [.str "T"])])])]])]]),
        ("render", .arr [
          .obj [("symbol", .str "C.M"), ("type_args", .arr [
            .obj [("type", .str "C"), ("args", .arr [.obj [("param", .int 0)]])]])],
          .obj [("symbol", .str "C.P.get")],
          .obj [("type", .obj [("type", .str "C"), ("args", .arr [.obj [("param", .int 0)]])]),
            ("type_args", .arr [
              .obj [("type", .str "C"), ("args", .arr [.obj [("param", .int 0)]])]])]])]) =
        .ok doc ∧
      doc.graph.Acyclic ∧
      (∀ request ∈ doc.requests, request.subject.Terminates doc.graph) ∧
      (doc.requests.map fun request =>
          (({} : Renderer).render doc.graph {} request.subject).1) =
        [.ok "C<C<!0>>.I<C<C<!0>>>.M(C<C<!0>>)", .ok "C<T>.I<T>.P.get", .ok "C<C<!0>>"] := by
  refine ⟨?doc, ?hdoc, (loaded_of_ofJson ?hdoc).graph.acyclic_iff_linksUpTo.2 ?hlinks,
    (render_terminates ?hdoc
      ((loaded_of_ofJson ?hdoc).graph.acyclic_iff_linksUpTo.2 ?hlinks)).2.1, ?hresults⟩
  case hdoc => exact rfl
  case hlinks => decide
  case hresults => decide +kernel

/-- **Every walk of an accepted document ends exactly if its links have no cycle.** -/
theorem acyclic_iff {json : Json} {doc : Document} (hdoc : ofJson json = .ok doc) :
    doc.graph.Acyclic ↔
      ∀ subject : Subject, subject.Loaded doc.graph → subject.Terminates doc.graph := by
  refine ⟨fun hacyclic => (render_terminates hdoc hacyclic).1, fun h id hcycle => ?_⟩
  have hloaded := loaded_of_ofJson hdoc
  have hsubject : (Subject.symbol (some id) none true).Loaded doc.graph :=
    ⟨Graph.known_of_cycle hcycle, by simp⟩
  obtain ⟨last, hleads⟩ := (hsubject.terminates_iff hloaded.graph).1 (h _ hsubject)
  exact hloaded.graph.not_leads_of_cycle hcycle last hleads

end Document

end DisplayNames
