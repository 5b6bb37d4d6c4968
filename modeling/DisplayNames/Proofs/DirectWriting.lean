import DisplayNames.Proofs.RequestOutcome
import DisplayNames.Proofs.Writing

/-!
# Rendering and writing

To collect the pieces of a display name and to write it straight into the session come to the same:
the same text or the same error, the same session and the same memo, whatever the renderer was in
the middle of.

## Main definitions

* `DisplayNames.Writing.Writes` — some work writes what a rendering holds.

## Main results

* `DisplayNames.Writing.Writes.andThen` — work in a row writes renderings in a row.
* `DisplayNames.Writing.Writes.symbolUpTo` — the walks write what they collect.
* `DisplayNames.Renderer.renderDirectly_eq` — both ways to render come to the same.
-/

set_option relaxedAutoImplicit false
set_option autoImplicit false

namespace DisplayNames

/-- Whether a rendering went through, or why it did not. -/
def Rendering.verdict (r : Rendering) : Except Fault Unit :=
  match r.stop with
  | none => .ok ()
  | some fault => .error fault

namespace Writing

/-- On an open session, and with a memo that answers as the scene does, the work writes what a
rendering holds: it appends the texts of the pieces, remembers the signatures that were examined,
and goes through or breaks off as the rendering does. -/
def Writes (scene : Scene) (catalog : Catalog) (work : Writing Unit) (r : Rendering) : Prop :=
  ∀ (texts : List String) (memo : Memo), memo.isBogus scene.graph = scene.bogus →
    work.on ⟨⟨some texts⟩, memo⟩ = (r.verdict,
      ⟨⟨some (texts ++ r.parts catalog)⟩, memo.examineAll scene.graph r.examined⟩)

/-- What comes behind some work is done on what the work left, unless it broke off. -/
lemma on_bind {α β : Type} (work : Writing α) (next : α → Writing β) (r : Renderer) :
    (work >>= next).on r = match work.on r with
      | (.ok a, r') => (next a).on r'
      | (.error fault, r') => (.error fault, r') := by
  unfold on ExceptT.run StateT.run
  simp only [bind, ExceptT.bind, ExceptT.mk, StateT.bind, ExceptT.bindCont]
  cases work r with
  | mk result r' => cases result <;> rfl

@[simp] lemma when_true (work : Writing Unit) : when true work = work := rfl

@[simp] lemma when_false (work : Writing Unit) : when false work = pure () := rfl

/-- Several things are written from the first one on. -/
lemma separated_cons_cons {α : Type} (separator : String) (write : α → Writing Unit) (a b : α)
    (rest : List α) : separated separator write (a :: b :: rest) = (do
      write a
      append separator
      separated separator write (b :: rest)) := by
  simp only [separated, List.forM_eq_forM, List.forM_cons, bind_assoc]

namespace Writes

variable {scene : Scene} {catalog : Catalog}

/-! ## Single steps -/

/-- To do nothing writes nothing. -/
lemma pure : Writes scene catalog (pure ()) .empty := by
  intro texts memo _
  simp only [Rendering.empty, Rendering.parts, List.map_nil, List.append_nil]
  rfl

/-- A text is appended as a literal piece. -/
lemma append (text : String) : Writes scene catalog (append text) (.literal text) :=
  fun _ _ _ => rfl

/-- A phrase is appended as the catalog has it. -/
lemma phrase (id : MessageId) :
    Writes scene catalog (phrase ⟨catalog, scene.niceNames⟩ id) (.phrase id) :=
  fun _ _ _ => rfl

/-- Nothing is written where a walk breaks off. -/
lemma stopped (fault : Fault) : Writes scene catalog (throw fault) (.stopped fault) := by
  intro texts memo _
  simp only [Rendering.stopped, Rendering.parts, List.map_nil, List.append_nil]
  rfl

/-- **Work in a row writes renderings in a row.** -/
theorem andThen {work next : Writing Unit} {a b : Rendering} (h : Writes scene catalog work a)
    (hnext : Writes scene catalog next b) :
    Writes scene catalog (do work; next) (a >> b) := by
  intro texts memo hmemo
  rw [on_bind, h texts memo hmemo]
  obtain ⟨pieces, examined, stop⟩ := a
  cases stop with
  | some fault => rfl
  | none =>
    have hmemo' : (memo.examineAll scene.graph examined).isBogus scene.graph = scene.bogus := by
      rw [Memo.isBogus_examineAll, hmemo]
    rw [show (⟨pieces, examined, none⟩ >> b : Rendering) =
      ⟨pieces ++ b.pieces, examined ++ b.examined, b.stop⟩ from rfl]
    refine (hnext _ _ hmemo').trans ?_
    simp only [Rendering.parts, Rendering.verdict, Memo.examineAll, List.map_append,
      List.append_assoc, List.foldl_append]

/-- What is done only under a condition writes nothing without it. -/
lemma when {condition : Bool} {work : Writing Unit} {r : Rendering}
    (h : Writes scene catalog work r) :
    Writes scene catalog (when condition work) (if condition then r else .empty) := by
  cases condition with
  | false => exact pure
  | true => exact h

/-- A signature is examined where its state is asked for, and the answer is that of the scene. -/
lemma check {id : SymId} {next : Bool → Writing Unit} {r : Rendering}
    (h : Writes scene catalog (next (scene.bogus id)) r) :
    Writes scene catalog (do let bogus ← check scene.graph id; next bogus)
      (.examine id >> r) := by
  intro texts memo hmemo
  have hcheck : (Writing.check scene.graph id).on ⟨⟨some texts⟩, memo⟩ =
      (.ok (memo.isBogus scene.graph id), ⟨⟨some texts⟩, memo.examine scene.graph id⟩) := rfl
  have hmemo' : (memo.examine scene.graph id).isBogus scene.graph = scene.bogus := by
    rw [Memo.isBogus_examine, hmemo]
  rw [on_bind, hcheck]
  dsimp only
  rw [hmemo]
  exact h texts (memo.examine scene.graph id) hmemo'

/-- A declared name. -/
lemma name (text : Option String) : Writes scene catalog (name text) (nameText text) :=
  append _

/-- A type parameter. -/
lemma typeParam (name : Option String) (index : Ordinal) (ofMethod : Bool) :
    Writes scene catalog (typeParam name index ofMethod) (typeParamText name index ofMethod) := by
  cases name with
  | none => exact (append _).andThen (append _)
  | some name => exact Writes.name _

/-! ## Lists and brackets -/

/-- Something in angle brackets. -/
lemma angled {α : Type} {items : List α} {inside : Writing Unit} {r : Unit → Rendering}
    (h : Writes scene catalog inside (r ())) :
    Writes scene catalog (angled items inside) (DisplayNames.angled items r) := by
  cases items with
  | nil => exact pure
  | cons => exact (append _).andThen (h.andThen (append _))

/-- Several things with a separator. -/
lemma separated {α : Type} (separator : String) {write : α → Writing Unit}
    {render : α → Rendering} {items : List α}
    (h : ∀ item ∈ items, Writes scene catalog (write item) (render item)) :
    Writes scene catalog (separated separator write items)
      (.separated separator render items) := by
  induction items with
  | nil => exact pure
  | cons item rest ih =>
    have hitem := h item List.mem_cons_self
    have hrest := ih fun item hi => h item (List.mem_cons_of_mem _ hi)
    cases rest with
    | nil =>
      rw [Writing.separated, List.forM_eq_forM, List.forM_nil, bind_pure_unit]
      exact hitem
    | cons next rest =>
      rw [separated_cons_cons]
      exact hitem.andThen ((append separator).andThen hrest)

/-- One pair of brackets. -/
lemma bracket (rank : Int) (vector : Bool) :
    Writes scene catalog (bracket rank vector) (DisplayNames.bracket rank vector) := by
  unfold Writing.bracket DisplayNames.bracket
  refine (append _).andThen ?_
  by_cases hrank : rank = 1
  · simp only [hrank, decide_true, Bool.true_and, if_true, ne_eq, not_true, decide_false,
      when_false, pure_bind]
    cases vector with
    | false => exact (append _).andThen (append _)
    | true => exact pure.andThen (append _)
  · simp only [hrank, decide_false, Bool.false_and, when_false, ne_eq, not_false_eq_true,
      decide_true, when_true, pure_bind, if_false]
    exact (append _).andThen (append _)

/-- The brackets of all layers of an array. -/
lemma brackets (t : Ty) : Writes scene catalog (brackets t) (DisplayNames.brackets t) := by
  induction t using Ty.base.induct with
  | case1 element rank vector ih =>
    rw [Writing.brackets, DisplayNames.brackets]
    exact (bracket _ _).andThen ih
  | case2 t hnot =>
    cases t <;> first | exact pure | exact absurd rfl (hnot _ _ _)

section

variable {write : Ty → Writing Unit} {render : Ty → Rendering} {ts : List Ty}
  (h : ∀ t ∈ ts, Writes scene catalog (write t) (render t))
include h

/-- The types of parameters. -/
lemma paramTypes (paramArray : Bool) :
    Writes scene catalog (paramTypes write paramArray ts)
      (DisplayNames.paramTypes render paramArray ts) := by
  induction ts with
  | nil => exact pure
  | cons t rest ih =>
    have ht := h t List.mem_cons_self
    have hrest := ih fun t ht => h t (List.mem_cons_of_mem _ ht)
    cases rest with
    | nil =>
      simp only [Writing.paramTypes, DisplayNames.paramTypes, List.isEmpty_nil, Bool.and_true,
        Bool.not_true, when_false, pure_bind, bind_pure_unit]
      cases paramArray with
      | false => exact ht
      | true => exact (append _).andThen ht
    | cons next rest =>
      rw [Writing.paramTypes, DisplayNames.paramTypes]
      simp only [List.isEmpty_cons, Bool.and_false, when_false, pure_bind, Bool.not_false,
        when_true]
      exact ht.andThen ((append _).andThen hrest)

/-- The parameters of a signature. -/
lemma paramList (varargs paramArray : Bool) :
    Writes scene catalog (paramList write ts varargs paramArray)
      (DisplayNames.paramList render ts varargs paramArray) := by
  refine (paramTypes h paramArray).andThen (when ?_)
  cases ts with
  | nil => exact append _
  | cons => exact (append _).andThen (append _)

end

/-! ## Types -/

section

variable {around : Option SymId → Writing Unit} {around' : Option SymId → Rendering}
  (h : ∀ parent, Writes scene catalog (around parent) (around' parent))
include h

/-- Types without their own brackets are written as they are rendered, and so are instantiations.

**Proof sketch.** Induction over the type.  An unresolved type is taken apart as it is written,
because what it holds decides whether there is anything to write. -/
lemma base_and_inst :
    (∀ t, Writes scene catalog (base scene.graph ⟨catalog, scene.niceNames⟩ around t)
      (renderBase scene around' t)) ∧
    ∀ i, Writes scene catalog (inst scene.graph ⟨catalog, scene.niceNames⟩ around i)
      (renderInst scene around' i) := by
  have hargs {ts : List Ty} (hts : ∀ t ∈ ts, Writes scene catalog
      (base scene.graph ⟨catalog, scene.niceNames⟩ around t) (renderBase scene around' t)) :
      Writes scene catalog (args scene.graph ⟨catalog, scene.niceNames⟩ around ts)
        (renderArgs scene around' ts) := by
    induction ts with
    | nil =>
      rw [args, renderArgs]
      exact pure
    | cons t rest ih =>
      have ht := hts t List.mem_cons_self
      have hrest := ih fun t ht => hts t (List.mem_cons_of_mem _ ht)
      rw [args, renderArgs]
      refine ht.andThen ((brackets t).andThen ?_)
      cases rest with
      | nil =>
        rw [args]
        exact pure
      | cons next rest => exact (append _).andThen hrest
  apply Ty.induction_parts
  case aggregate =>
    intro i hi
    rw [base, renderBase]
    exact hi
  case param =>
    intro index ofMethod name
    rw [base, renderBase]
    exact typeParam name index ofMethod
  case array =>
    intro element rank vector helement
    rw [base, renderBase]
    exact helement
  case pointer | nullable =>
    intro t ht
    rw [base, renderBase]
    exact ht.andThen ((brackets t).andThen (append _))
  case byRef =>
    intro t out ht
    rw [base, renderBase]
    exact (append _).andThen (ht.andThen (brackets t))
  case error =>
    intro parent space text ts hp hts
    unfold base renderBase
    cases parent with
    | none =>
      cases space with
      | none =>
        cases ts
        · exact phrase _
        · exact stopped _
      | some space =>
        cases text with
        | none => exact stopped _
        | some text =>
          cases ts with
          | none => exact stopped _
          | some ts =>
            exact (h (some space)).andThen ((name _).andThen (angled (hargs (hts ts rfl))))
    | some t =>
      cases text with
      | none => exact stopped _
      | some text =>
        cases ts with
        | none => exact stopped _
        | some ts =>
          have hparent := (hp t rfl).andThen ((brackets t).andThen (append "."))
          exact hparent.andThen ((name _).andThen (angled (hargs (hts ts rfl))))
  case inst =>
    intro decl ts outer hts houter
    have hnice : scene.niceNames.find? scene.graph decl = scene.niceName? decl := rfl
    rw [inst, renderInst, hnice]
    cases scene.niceName? decl with
    | some nice => exact append nice
    | none =>
      cases outer with
      | none => exact (h _).andThen ((name _).andThen (angled (hargs hts)))
      | some outer =>
        simp only [Rendering.andThen_assoc]
        exact (houter outer rfl).andThen ((append _).andThen
          ((name _).andThen (angled (hargs hts))))
  case placeholder =>
    rw [base, renderBase]
    exact pure
  case unknown =>
    intro tag
    rw [base, renderBase]
    exact stopped _
  all_goals
    rw [base, renderBase]
    exact phrase _

/-- Types. -/
lemma type (t : Ty) :
    Writes scene catalog (type scene.graph ⟨catalog, scene.niceNames⟩ around t)
      (renderTy scene around' t) :=
  ((base_and_inst h).1 t).andThen (brackets t)

end

/-! ## Symbols -/

section

variable {symbol : SymId → Writing Unit} {symbol' : SymId → Rendering}
  (h : ∀ id, Writes scene catalog (symbol id) (symbol' id))
include h

/-- What is around a symbol. -/
lemma around (parent : Option SymId) :
    Writes scene catalog (around scene.graph symbol parent) (scene.around symbol' parent) := by
  cases parent with
  | none => exact pure
  | some parent =>
    by_cases hroot : parent = scene.graph.root
    · simp only [Writing.around, Scene.around, hroot, ne_eq, not_true, decide_false, when_false,
        if_true]
      exact pure
    · simp only [Writing.around, Scene.around, hroot, ne_eq, not_false_eq_true, decide_true,
        when_true, if_false]
      exact (h parent).andThen (append _)

/-- What is around a symbol under a context. -/
lemma enclosing (ctx : Option Context) (parent : Option SymId) :
    Writes scene catalog (enclosing scene.graph ⟨catalog, scene.niceNames⟩ symbol ctx parent)
      (scene.enclosing symbol' ctx parent) := by
  cases parent with
  | none => exact pure
  | some parent =>
    by_cases hroot : parent = scene.graph.root
    · simp only [Writing.enclosing, Scene.enclosing, hroot, ne_eq, not_true, decide_false,
        when_false, if_true]
      exact pure
    · simp only [Writing.enclosing, Scene.enclosing, hroot, ne_eq, not_false_eq_true, decide_true,
        when_true, if_false]
      cases (ctx.filter fun ctx => !ctx.isNop && !(scene.graph.typeVarsAll parent).isEmpty).bind
        fun ctx => (scene.graph.thisInst? parent).map (Inst.subst (some ctx)) with
      | some i => exact ((base_and_inst (around h)).2 i).andThen (append _)
      | none => exact (h parent).andThen (append _)

end

section

variable {write : Ty → Writing Unit} {render : Ty → Rendering}
  (h : ∀ t, Writes scene catalog (write t) (render t))
include h

/-- What stands for a slot that is known not to resolve. -/
lemma unresolved (impl : ExplicitImpl) :
    Writes scene catalog (unresolved write impl) ((impl.unresolved.map render).getD .empty) := by
  unfold Writing.unresolved
  cases impl.unresolved with
  | none => exact pure
  | some t => exact h t

/-- The own name of a method.

**Proof sketch.** A case for each way in which a method gets its name. -/
lemma methodName (s : Symbol) (m : Method) :
    Writes scene catalog (methodName scene.graph write s m) (scene.methodName render s m) := by
  unfold Writing.methodName Scene.methodName
  generalize (s.parent.bind scene.graph.find?).filter (·.kind == .aggregate) = parent
  dsimp only
  split
  · cases parent with
    | none => exact stopped _
    | some parent => exact name _
  · split
    · refine (append _).andThen ?_
      cases parent with
      | none => exact stopped _
      | some parent => exact name _
    · split
      · cases m.returns with
        | none => exact stopped _
        | some result => exact (append _).andThen ((append _).andThen (h result))
      · split
        · refine (append _).andThen ?_
          cases Operator.displayOfMethod? s.name with
          | none => exact stopped _
          | some symbol => exact append symbol
        · split
          · exact unresolved h m.impl
          · exact name s.name

/-- The arguments of a method. -/
lemma methodArguments (id : SymId) (m : Method) :
    Writes scene catalog (methodArguments scene.graph write id m)
      (scene.methodArguments render id m) := by
  have hlist : Writes scene catalog (Writing.paramList write m.params m.varargs m.paramArray)
      (DisplayNames.paramList render m.params m.varargs m.paramArray) :=
    paramList (fun t _ => h t) m.varargs m.paramArray
  refine (append _).andThen (check ?_)
  cases scene.bogus id with
  | false => exact hlist.andThen (append _)
  | true => exact pure.andThen (append _)

/-- An indexer with its parameters. -/
lemma indexer (p : Property) :
    Writes scene catalog (indexer write p) (Scene.indexerText render p) :=
  (append _).andThen ((paramList (fun t _ => h t) false p.paramArray).andThen (append _))

/-- The own name of a property. -/
lemma propertyName (s : Symbol) (p : Property) :
    Writes scene catalog (propertyName write s p) (Scene.propertyName render s p) := by
  unfold Writing.propertyName Scene.propertyName
  split
  · exact (unresolved h p.impl).andThen (when ((append _).andThen (indexer h p)))
  · split
    · exact indexer h p
    · exact name s.name

end

/-- The role of an accessor of a property. -/
lemma propertyRole (id : SymId) (accessor : Option String) (owner : SymId) :
    Writes scene catalog (propertyRole scene.graph id accessor owner)
      (scene.propertyRole id accessor owner) := by
  unfold Writing.propertyRole Scene.propertyRole
  dsimp only
  split
  · exact append _
  · split
    · exact append _
    · exact stopped _

/-- The role of an accessor of an event. -/
lemma eventRole (id : SymId) (accessor : Option String) (owner : SymId) :
    Writes scene catalog (eventRole scene.graph id accessor owner)
      (scene.eventRole id accessor owner) := by
  unfold Writing.eventRole Scene.eventRole
  dsimp only
  split
  · exact append _
  · split
    · exact append _
    · exact stopped _

/-- **The walks write what they collect.**

**Proof sketch.** Induction on the bound, and a case for each kind of symbol.  What is written one
behind the other is what is collected one behind the other; what is in front of the symbol and
inside its name is written with the smaller bound. -/
theorem symbolUpTo (bound : Nat) (id : SymId) (ctx : Option Context) (args : Bool) :
    Writes scene catalog
      (symbolUpTo scene.graph ⟨catalog, scene.niceNames⟩ bound id ctx args)
      (scene.symbolUpTo bound id ctx args) := by
  induction bound generalizing id ctx args with
  | zero => exact stopped _
  | succ bound ih =>
    have hplain (parent : SymId) := ih parent none true
    have htype (t : Ty) := type (around hplain) (t.subst ctx)
    have henclosing := enclosing hplain ctx
    unfold Writing.symbolUpTo Scene.symbolUpTo
    dsimp only
    cases scene.graph.find? id with
    | none => exact stopped _
    | some s =>
      dsimp only
      cases s.detail with
      | aggregate a =>
        have hnice : scene.niceNames.find? scene.graph id = scene.niceName? id := rfl
        dsimp only
        rw [hnice]
        cases scene.niceName? id with
        | some nice => exact append nice
        | none =>
          exact (henclosing s.parent).andThen ((name s.name).andThen
            (angled (separated "," fun t _ => htype t)))
      | method m =>
        dsimp only
        cases m.impl.target? with
        | some target => exact (henclosing s.parent).andThen (ih _ _ _)
        | none =>
          cases m.property with
          | some owner => exact (ih _ _ _).andThen (propertyRole id s.name owner)
          | none =>
            cases m.event with
            | some owner => exact (ih _ _ _).andThen (eventRole id s.name owner)
            | none =>
              exact (henclosing s.parent).andThen ((methodName htype s m).andThen
                ((angled (separated "," fun t _ => htype t)).andThen
                  (when (methodArguments htype id m))))
      | property p =>
        refine (henclosing s.parent).andThen ?_
        cases p.impl.target? with
        | some target => exact ih _ _ _
        | none => exact propertyName htype s p
      | event e => exact pure
      | space =>
        dsimp only
        split
        · exact phrase _
        · exact (around hplain s.parent).andThen (name s.name)
      | field => exact (henclosing s.parent).andThen (name s.name)
      | typeParameter t => exact typeParam _ _ _
      | localVariable => exact name s.name
      | scope => exact stopped _

/-- Everything that can be rendered. -/
lemma subject (shown : Subject) :
    Writes scene catalog (subject scene.graph ⟨catalog, scene.niceNames⟩ shown)
      (shown.rendering scene) := by
  cases shown with
  | symbol id ctx args =>
    cases id with
    | none => exact stopped _
    | some id => exact symbolUpTo scene.walkBound id ctx args
  | type t ctx =>
    exact type (around fun parent => symbolUpTo scene.walkBound parent none true) (t.subst ctx)

end Writes

end Writing

/-- **To render a subject and to write it come to the same**, for any renderer, open or closed.

**Proof sketch.** An open renderer refuses both.  For a closed one the writer of the subject was
shown to write what the rendering collects and to remember what it examines, so both close the
session with the same verdict. -/
theorem Renderer.renderDirectly_eq (r : Renderer) (g : Graph) (display : Display)
    (subject : Subject) : r.renderDirectly g display subject = r.render g display subject := by
  obtain ⟨⟨texts⟩, memo⟩ := r
  cases texts with
  | some texts => rfl
  | none =>
    let scene : Scene := ⟨g, display.niceNames, memo.isBogus g⟩
    have hwrites : Writing.Writes scene display.catalog (Writing.subject g display subject)
        (subject.rendering scene) := .subject subject
    have hrendering : (⟨⟨none⟩, memo⟩ : Renderer).rendering g display subject =
        subject.rendering scene := rfl
    have hwritten := hwrites [] memo rfl
    unfold renderDirectly render
    rw [hrendering]
    dsimp only [Session.begin]
    rw [hwritten]
    unfold Rendering.verdict Rendering.finish
    cases (subject.rendering scene).stop <;> rfl

end DisplayNames
