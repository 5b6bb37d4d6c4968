import DisplayNames.Proofs.Failure
import DisplayNames.Render.Renderer

/-!
# What requests come to

The requests of an accepted document, under any catalog and nice names and with any memo: a type is
always displayed, and a symbol fails exactly if its chain of slots and owners ends in a method that
cannot be displayed.  No other error occurs.  What the memo remembers about a graph is true of it,
so it changes no answer.

## Main definitions

* `DisplayNames.Subject.Outcome` — what rendering a subject can come to.
* `DisplayNames.Memo.Sound` — what is remembered about a graph is true of it.

## Main results

* `DisplayNames.Memo.isBogus_of_empty` — a memo answers what the graph answers.
* `DisplayNames.Subject.Loaded.outcome` — what rendering over a loaded graph comes to.
* `DisplayNames.Document.render_outcome` — the same for accepted documents.
-/

set_option relaxedAutoImplicit false
set_option autoImplicit false

namespace DisplayNames

/-- What rendering a subject comes to: a type becomes a text, and a symbol fails exactly if its
chain is finite and ends in a defective method, with the error of that method. -/
def Subject.Outcome (g : Graph) : Subject → Except Fault String → Prop
  | .type _ _, result => ∃ text, result = .ok text
  | .symbol id _ _, result => ∀ error, result = .error (.broken error) ↔
    ∃ known ∈ id, ∃ last, g.Leads known last ∧ g.Defective last error

/-- The error of a defective method names the method and what is wrong with it. -/
lemma Graph.Defective.message {g : Graph} {id : SymId} {error : RenderError}
    (h : g.Defective id error) : ∃ s, g.find? id = some s ∧
      (error.message = "conversion operator " ++ Text.quotedOption s.name ++ " has no return type" ∨
        error.message = "unknown operator method name: " ++ Text.quotedOption s.name) := by
  cases h with
  | conversion hs => exact ⟨_, hs, .inl rfl⟩
  | operator hs => exact ⟨_, hs, .inr rfl⟩

/-- A closed renderer gives what the walk for the subject comes to. -/
lemma Renderer.render_fst {r : Renderer} (hr : r.session.isOpen = false) (g : Graph)
    (display : Display) (subject : Subject) :
    (r.render g display subject).1 =
      (subject.rendering ⟨g, display.niceNames, r.memo.isBogus g⟩).finish display.catalog := by
  rw [render, if_neg (by simp [hr])]
  rfl

/-- A closed renderer is closed again after a call. -/
lemma Renderer.render_closed {r : Renderer} (hr : r.session.isOpen = false) (g : Graph)
    (display : Display) (subject : Subject) :
    (r.render g display subject).2.session.isOpen = false := by
  rw [render, if_neg (by simp [hr])]
  rfl

/-- **What rendering over a loaded graph comes to.**

**Proof sketch.** The outcome is what is collected or the fault at which the walk stops; for a type
there is none, and for a symbol `Scene.stop_symbol` says which one. -/
theorem Subject.Loaded.outcome {g : Graph} {subject : Subject} (hsubject : subject.Loaded g)
    (hg : g.Loaded) (display : Display) {r : Renderer}
    (hr : r.session.isOpen = false) :
    subject.Outcome g (r.render g display subject).1 := by
  rw [Renderer.render_fst hr]
  let scene : Scene := ⟨g, display.niceNames, r.memo.isBogus g⟩
  have hscene : scene.graph.Loaded := hg
  cases subject with
  | type t ctx =>
    obtain ⟨ht, hctx⟩ := hsubject
    exact ⟨_, (Rendering.finish_eq_ok_iff _ _ _).2 ⟨Scene.stop_type hscene ht hctx, rfl⟩⟩
  | symbol id ctx args =>
    cases id with
    | none => exact hsubject.elim
    | some id =>
      obtain ⟨⟨s, hs⟩, hctx⟩ := hsubject
      intro error
      have hstop := Scene.stop_symbol hscene hs hctx args error
      rw [Rendering.finish_eq_error_iff, rendering, hstop]
      simp [scene]

/-! ## Remembered signatures -/

/-- To remember the state of a signature of a graph changes no answer about that graph. -/
lemma Memo.isBogus_examine (memo : Memo) (g : Graph) (id : SymId) :
    (memo.examine g id).isBogus g = memo.isBogus g := by
  funext other
  unfold isBogus examine
  rw [Table.get?_insertIfNew]
  split
  · rename_i h
    rw [h, Option.getD_some]
  · rfl

/-- The same for the states of several signatures. -/
lemma Memo.isBogus_examineAll (memo : Memo) (g : Graph) (ids : List SymId) :
    (memo.examineAll g ids).isBogus g = memo.isBogus g := by
  induction ids generalizing memo with
  | nil => rfl
  | cons id rest ih =>
    rw [← memo.isBogus_examine g id]
    exact ih (memo.examine g id)

/-- After any calls on a graph the answers of a memo that began empty are those of the graph. -/
theorem Memo.isBogus_of_empty (g : Graph) (ids : List SymId) :
    Memo.isBogus (Memo.examineAll [] g ids) g = g.signatureBogus :=
  Memo.isBogus_examineAll [] g ids

/-- What is remembered about the signatures of a graph is true of it. -/
def Memo.Sound (memo : Memo) (g : Graph) : Prop :=
  ∀ id bogus, memo.get? id = some bogus → bogus = g.signatureBogus id

/-- A memo is sound for a graph exactly if it answers what the graph answers. -/
lemma Memo.sound_iff {memo : Memo} {g : Graph} :
    memo.Sound g ↔ memo.isBogus g = g.signatureBogus := by
  constructor
  · intro h
    funext id
    unfold isBogus
    cases hget : memo.get? id with
    | none => rfl
    | some bogus => exact h id bogus hget
  · intro h id bogus hget
    have hid := congrFun h id
    rw [isBogus, hget, Option.getD_some] at hid
    exact hid

/-- A memo that remembers nothing is sound. -/
lemma Memo.Sound.empty (g : Graph) : Memo.Sound [] g := by
  rw [Memo.sound_iff]
  rfl

/-- A sound memo stays sound when signatures of the graph are examined. -/
lemma Memo.Sound.examineAll {memo : Memo} {g : Graph} (h : memo.Sound g) (ids : List SymId) :
    (memo.examineAll g ids).Sound g := by
  rw [Memo.sound_iff] at h ⊢
  rw [Memo.isBogus_examineAll, h]

/-- A call on a graph adds signatures of that graph to the memo. -/
lemma Renderer.render_memo (r : Renderer) (g : Graph) (display : Display) (subject : Subject) :
    ∃ ids, (r.render g display subject).2.memo = r.memo.examineAll g ids := by
  unfold render
  split
  · exact ⟨[], rfl⟩
  · exact ⟨_, rfl⟩

/-! ## The requests of accepted documents -/

namespace Document

/-- **What the requests of an accepted document come to**, and everything else that its symbols,
types and contexts can make up.  A type is always displayed; a symbol fails exactly if its chain of
slots and owners ends in a conversion without a result or an unknown operator; and the session is
closed again afterwards.

**Proof sketch.** Over a loaded graph a type never stops the walk, and a symbol stops it as the end
of its chain does.  So it is enough that everything at hand is loaded: requests and symbols by what
the reader of the document keeps, types and contexts by what the resolver makes. -/
theorem render_outcome {json : Json} {doc : Document} (hdoc : ofJson json = .ok doc)
    (display : Display) {r : Renderer} (hr : r.session.isOpen = false) :
    (∀ request ∈ doc.requests,
      request.subject.Outcome doc.graph (r.render doc.graph display request.subject).1) ∧
    (∀ fields ctx, readContext ⟨doc.graph, doc.registry⟩ fields = .ok ctx →
      (∀ id s args, doc.graph.find? id = some s →
        (Subject.symbol (some id) ctx args).Outcome doc.graph
          (r.render doc.graph display (.symbol (some id) ctx args)).1) ∧
      ∀ value t, resolve ⟨doc.graph, doc.registry⟩ [] value = .ok t →
        (Subject.type t ctx).Outcome doc.graph (r.render doc.graph display (.type t ctx)).1) ∧
    (∀ id error, doc.graph.Defective id error → ∃ s, doc.graph.find? id = some s ∧
      (error.message =
          "conversion operator " ++ Text.quotedOption s.name ++ " has no return type" ∨
        error.message = "unknown operator method name: " ++ Text.quotedOption s.name)) ∧
    ∀ subject, (r.render doc.graph display subject).2.session.isOpen = false := by
  have hloaded := loaded_of_ofJson hdoc
  have hnames : Names.Sound ⟨doc.graph, doc.registry⟩ := ⟨hloaded.graph.toNested, hloaded.known⟩
  refine ⟨fun request hrequest => ?_, fun fields ctx hctx => ?_,
    fun id error hdefect => hdefect.message,
    fun subject => Renderer.render_closed hr doc.graph display subject⟩
  · exact (hloaded.requests request hrequest).outcome hloaded.graph display hr
  · have hctx := readContext_wellFormed hnames hctx
    refine ⟨fun id s args hs => ?_, fun value t ht => ?_⟩
    · have hsubject : (Subject.symbol (some id) ctx args).Loaded doc.graph := ⟨⟨s, hs⟩, hctx⟩
      exact hsubject.outcome hloaded.graph display hr
    · have hsubject : (Subject.type t ctx).Loaded doc.graph :=
        ⟨resolve_wellFormed hnames (by simp) ht, hctx⟩
      exact hsubject.outcome hloaded.graph display hr

/-- A class with a conversion that lacks a result, an operator and a method that is marked as an
operator without being one: the operator is displayed with its sign, the two others fail, each with
its own error, and the class does not. -/
theorem render_outcome_conversion :
    ∃ doc, ofJson (.obj
        [("declarations", .arr [.obj [("kind", .str "class"), ("name", .str "Box"),
          ("members", .arr [.obj [("kind", .str "method"), ("conversion", .str "implicit")],
            .obj [("kind", .str "method"), ("name", .str "op_Addition"),
              ("operator", .bool true)],
            .obj [("kind", .str "method"), ("name", .str "op_Sum"),
              ("operator", .bool true)]])]]),
        ("render", .arr [.obj [("symbol", .str "Box.op_Implicit")],
          .obj [("symbol", .str "Box.op_Addition")], .obj [("symbol", .str "Box.op_Sum")],
          .obj [("type", .str "Box")]])]) = .ok doc ∧
      ({} : Renderer).session.isOpen = false ∧
      (∀ request ∈ doc.requests, request.subject.Outcome doc.graph
        (({} : Renderer).render doc.graph {} request.subject).1) ∧
      (doc.requests.map fun request =>
          (({} : Renderer).render doc.graph {} request.subject).1) =
        [.error (.broken (.conversionWithoutResult (some "op_Implicit"))),
          .ok "Box.operator +()", .error (.broken (.unknownOperator (some "op_Sum"))),
          .ok "Box"] := by
  refine ⟨?doc, ?hdoc, rfl, (render_outcome ?hdoc {} rfl).1, ?hresults⟩
  case hdoc => exact rfl
  case hresults => rfl

end Document

end DisplayNames
