import DisplayNames.Argument
import DisplayNames.Proofs.EnclosingTypes

/-!
# Methods on instantiations

A method that was found on an instantiation of its aggregate is displayed on exactly that
instantiation.  The context of the call takes the arguments of all levels, outermost first, and the
parameters of the aggregate are numbered through all levels in the same order; so at every level the
arguments stand where the parameters of that level look for them.

## Main definitions

* `DisplayNames.Inst.Over` — an instantiation follows the levels of an aggregate.
* `DisplayNames.paramsText` — the text of the parameters of a signature.
* `DisplayNames.Method.textOn` — the text of a method on an instantiation.

## Main results

* `DisplayNames.Scene.instUpTo_of_over` — an aggregate over its own parameters is displayed as the
  instantiation whose arguments are put in.
* `DisplayNames.Document.format_methodOn` — what a method on an instantiation is displayed as.
-/

set_option relaxedAutoImplicit false
set_option autoImplicit false

namespace DisplayNames

/-! ## Texts of signatures -/

/-- The texts of the types of parameters; the last one is marked if it collects the remaining
arguments. -/
def markLast (paramArray : Bool) : List String → List String
  | [] => []
  | [text] => [if paramArray then "params " ++ text else text]
  | text :: next :: rest => text :: markLast paramArray (next :: rest)

/-- The text between the brackets of a signature, from the texts of the types of its parameters. -/
def paramsText (types : List String) (varargs paramArray : Bool) : String :=
  ", ".intercalate (markLast paramArray types ++ if varargs then ["..."] else [])

/-- Marking keeps the number of texts, in particular none. -/
@[simp] lemma length_markLast (paramArray : Bool) :
    ∀ types : List String, (markLast paramArray types).length = types.length
  | [] => rfl
  | [_] => rfl
  | _ :: next :: rest => by simp [markLast, length_markLast paramArray (next :: rest)]

/-- The texts of some parameters are some texts. -/
lemma markLast_cons_ne_nil (paramArray : Bool) (text : String) (types : List String) :
    markLast paramArray (text :: types) ≠ [] := by
  rw [← List.length_pos_iff, length_markLast]
  exact Nat.succ_pos _

namespace Rendering

section

variable (catalog : Catalog) (type : Ty → Rendering)

/-- The text of the types of parameters.

**Proof sketch.** Induction on the list.  Only the last parameter can be marked, so the mark stays
behind while types are put in front. -/
lemma finish_paramTypes (paramArray : Bool) (params : List Ty) :
    (paramTypes type paramArray params).finish catalog = (do
      let types ← params.mapM fun t => (type t).finish catalog
      return ", ".intercalate (markLast paramArray types)) := by
  induction params with
  | nil => rfl
  | cons t rest ih =>
    cases rest with
    | nil =>
      simp only [paramTypes, List.mapM_cons, List.mapM_nil, bind_assoc, pure_bind, markLast,
        String.intercalate_singleton]
      cases paramArray with
      | false => simp
      | true =>
        rw [if_pos rfl, finish_andThen, finish_literal]
        rfl
    | cons next rest =>
      have hmark (text text' : String) (types : List String) :
          ", ".intercalate (markLast paramArray (text :: text' :: types)) =
            text ++ (", " ++ ", ".intercalate (markLast paramArray (text' :: types))) := by
        rw [markLast, String.intercalate_cons_of_ne_nil (markLast_cons_ne_nil _ _ _),
          String.append_assoc]
      rw [paramTypes, finish_andThen, finish_andThen, ih, finish_literal]
      simp only [List.mapM_cons, bind_assoc, pure_bind, hmark]
      rfl

/-- The text of the parameters of a signature.

**Proof sketch.** Without parameters there is nothing but the dots, if any.  With parameters the
dots stand behind a comma. -/
lemma finish_paramList (params : List Ty) (varargs paramArray : Bool) :
    (paramList type params varargs paramArray).finish catalog = (do
      let types ← params.mapM fun t => (type t).finish catalog
      return paramsText types varargs paramArray) := by
  cases params with
  | nil => cases varargs <;> rfl
  | cons t rest =>
    have hplain (types : List String) :
        ", ".intercalate (markLast paramArray types) ++ "" = paramsText types false paramArray := by
      simp [paramsText]
    have hdots (text : String) (types : List String) :
        ", ".intercalate (markLast paramArray (text :: types)) ++ (", " ++ "...") =
          paramsText (text :: types) true paramArray := by
      rw [paramsText, if_pos rfl, String.intercalate_append_of_ne_nil
        (markLast_cons_ne_nil _ _ _) (by simp), String.intercalate_singleton, String.append_assoc]
    rw [paramList, finish_andThen, finish_paramTypes]
    simp only [List.mapM_cons, bind_assoc, pure_bind]
    cases varargs with
    | false =>
      simp only [← hplain, Bool.false_eq_true, if_false, finish_empty]
      rfl
    | true =>
      simp only [← hdots, if_true, List.isEmpty_cons, Bool.false_eq_true, if_false, finish_andThen,
        finish_literal]
      rfl

end

end Rendering

/-! ## Arguments for all levels -/

/-- An instantiation follows the levels of an aggregate: it instantiates the same aggregates from
the inside out, each with as many arguments as the aggregate introduces parameters. -/
def Inst.Over : Inst → List (SymId × Aggregate) → Prop
  | .mk decl args none, levels => ∃ a, levels = [(decl, a)] ∧ args.length = a.typeVars.length
  | .mk decl args (some outer), levels =>
    ∃ a rest, levels = (decl, a) :: rest ∧ args.length = a.typeVars.length ∧ outer.Over rest

/-- An instantiation that follows some levels has an argument for every parameter of theirs. -/
lemma Inst.Over.length_argsAll :
    ∀ {inst : Inst} {levels : List (SymId × Aggregate)}, inst.Over levels →
      inst.argsAll.length = (levels.reverse.flatMap fun level => level.2.typeVars).length
  | .mk _ args none, _, ⟨a, rfl, hlength⟩ => by simp [argsAll, hlength]
  | .mk _ args (some outer), _, ⟨a, rest, rfl, hlength, houter⟩ => by
    simp [argsAll, hlength, length_argsAll houter]

/-- The levels that an instantiation follows can be instantiated over their own parameters. -/
lemma Inst.Over.exists_inst :
    ∀ {inst : Inst} {levels : List (SymId × Aggregate)}, inst.Over levels →
      ∃ own, Graph.instOfLevels levels = some own
  | .mk _ _ none, _, ⟨_, rfl, _⟩ => ⟨_, rfl⟩
  | .mk _ _ (some _), _, ⟨_, _, rfl, _⟩ => ⟨_, rfl⟩

/-- Parameters that are numbered from some position on are replaced by what stands there. -/
lemma typeParams_subst {ctx : Context} {ofMethod : Bool} {front args back : List Ty}
    (hctx : (if ofMethod then ctx.ofMethod else ctx.ofType) = front ++ args ++ back)
    {names : List (Option String)} (hlength : args.length = names.length) :
    (typeParams front.length ofMethod names).map (Ty.subst (some ctx)) = args := by
  refine List.ext_getElem (by simp [typeParams, hlength]) fun i hi hi' => ?_
  have hnop : ctx.isNop = false := by
    have hargs : args ≠ [] := List.ne_nil_of_length_pos (by omega)
    cases ofMethod <;> simp_all [Context.isNop]
  have hfind : ctx.find? (.number (front.length + i : Nat)) ofMethod = some args[i] := by
    unfold Context.find?
    rw [if_neg (by simp only [Ordinal.value]; omega), hctx]
    simp only [Ordinal.value, Int.toNat_natCast]
    rw [List.append_assoc, List.getElem?_append_right (by omega), Nat.add_sub_cancel_left,
      List.getElem?_append_left hi', List.getElem?_eq_getElem hi']
  simp only [List.getElem_map, typeParams, List.getElem_mapIdx, Ty.subst, hnop, Ty.replace, hfind]
  rfl

/-! ## Methods on instantiations -/

/-- A method without a role that would give it another name. -/
structure Method.Ordinary (m : Method) : Prop where
  constructor : m.constructor = false
  destructor : m.destructor = false
  conversion : m.conversion = false
  operator : m.operator = false
  impl : m.impl.declared = false
  property : m.property = none
  event : m.event = none

/-- The text of the parameters of a method as a context instantiates them, from the texts of types;
there is none if the signature is bogus. -/
def Method.paramsUnder (m : Method) (text : Ty → Except Fault String) (bogus : Bool)
    (ctx : Option Context) : Except Fault String :=
  if bogus then .ok ""
  else do
    let types ← (m.params.map (Ty.subst ctx)).mapM text
    return paramsText types m.varargs m.paramArray

/-- The text of a method on an instantiation, from the texts of types: the instantiation, a point
and the name, the type arguments if there are any, and the parameters as the instantiation and the
type arguments instantiate them. -/
def Method.textOn (m : Method) (text : Ty → Except Fault String) (name : Option String)
    (bogus : Bool) (on : Inst) (typeArgs : List Ty) : Except Fault String := do
  let front ← text (.aggregate on)
  let args ← typeArgs.mapM text
  let params ← m.paramsUnder text bogus (some (.ofInst (some on) typeArgs))
  return front ++ "." ++ (if name = some indexerName then "this" else name.getD "")
    ++ (if typeArgs.isEmpty then "" else "<" ++ ",".intercalate args ++ ">")
    ++ "(" ++ params ++ ")"

namespace Scene

variable {scene : Scene}

/-- **An aggregate over its own parameters is displayed as the instantiation whose arguments are put
in**, if the instantiation follows the levels of the aggregate.

**Proof sketch.** Induction on the instantiation.  At each level the parameters are numbered behind
those of the levels around it, and the arguments of the level stand behind those of the levels
around it. -/
theorem instUpTo_of_over (h : scene.graph.Nested) (bound : Nat) {ctx : Context} :
    ∀ (on : Inst) {id : SymId} {inst : Inst} {back : List Ty}, on.Over (scene.graph.levels id) →
      scene.graph.thisInst? id = some inst → ctx.ofType = on.argsAll ++ back →
        scene.instUpTo bound (inst.subst (some ctx)) = scene.instUpTo bound on
  | .mk decl args outer, id, inst, back, hover, hthis, hctx => by
    obtain ⟨s, a, parent, hs, ha, hparent, rfl⟩ := h.cases_of_thisInst? hthis
    obtain ⟨_, names, hparent', hvars⟩ := h.typeVars hs ha
    obtain rfl := Option.some.inj (hparent.symm.trans hparent')
    rw [instUpTo_subst h bound hthis]
    have hown {front : List Ty} (hfront : front.length = (scene.graph.typeVarsAll parent).length)
        (hctx : ctx.ofType = front ++ args ++ back) (hlength : args.length = a.typeVars.length) :
        a.typeVars.map (Ty.subst (some ctx)) = args := by
      have hnames : args.length = (names.map some).length := by
        simpa [hvars, typeParams] using hlength
      have hposition : (if false then ctx.ofMethod else ctx.ofType) = front ++ args ++ back := hctx
      rw [hvars, ← hfront]
      exact typeParams_subst hposition hnames
    rw [h.levels_eq hs ha hparent] at hover
    simp only [Inst.decl, Inst.args, Inst.outer]
    cases outer with
    | none =>
      obtain ⟨_, hlevels, hlength⟩ := hover
      obtain ⟨⟨rfl, rfl⟩, hnone⟩ : (id = decl ∧ a = _) ∧ scene.graph.levels parent = [] := by
        simpa using hlevels
      have hfront : ([] : List Ty).length = (scene.graph.typeVarsAll parent).length := by
        simp [Graph.typeVarsAll, hnone]
      have hparentInst : scene.graph.thisInst? parent = none := by
        rw [Graph.thisInst?, hnone, Graph.instOfLevels]
      rw [hown hfront hctx hlength, hparentInst, Option.map_none]
    | some outer =>
      obtain ⟨_, _, hlevels, hlength, houter⟩ := hover
      obtain ⟨⟨rfl, rfl⟩, rfl⟩ : (id = decl ∧ a = _) ∧ scene.graph.levels parent = _ := by
        simpa using hlevels
      have hfront : outer.argsAll.length = (scene.graph.typeVarsAll parent).length :=
        houter.length_argsAll
      obtain ⟨i, hi⟩ : ∃ i, scene.graph.thisInst? parent = some i := houter.exists_inst
      rw [hown hfront hctx hlength, hi]
      rw [Inst.argsAll, List.append_assoc] at hctx
      have hrest := instUpTo_of_over h bound outer houter hi hctx
      exact renderInst_congr_parts scene _ rfl rfl (congrArg some hrest)

section

variable (h : scene.graph.Loaded) {bound : Nat} (hb : 2 * scene.graph.size < bound)
  (hle : bound ≤ scene.walkBound) (ctx : Option Context) (catalog : Catalog)
include h hb hle

/-- A type under a context, on a walk that is shorter but long enough, comes to what the type that
the context makes of it comes to. -/
lemma finish_typeUpTo (t : Ty) :
    (scene.typeUpTo bound ctx t).finish catalog = (scene.type (t.subst ctx) none).finish catalog :=
  Rendering.Agrees.finish_eq (renderTy_congr scene Rendering.Agrees.congruence
    (scene.around_congr Rendering.Agrees.congruence fun parent =>
      symbolUpTo_agrees h hb hle parent (by simp) true) (t.subst ctx)) catalog

/-- What stands in angle brackets comes to the types that the context makes of it. -/
lemma finish_typeArgs (vars : List Ty) :
    (angled vars fun _ => .separated "," (scene.typeUpTo bound ctx) vars).finish catalog = (do
      let args ← (vars.map (Ty.subst ctx)).mapM fun t => (scene.type t none).finish catalog
      return if vars.isEmpty then "" else "<" ++ ",".intercalate args ++ ">") := by
  rw [Rendering.finish_angled, List.mapM_map, Rendering.finish_separated]
  simp only [finish_typeUpTo h hb hle, bind_assoc, pure_bind]
  cases vars with
  | nil => rfl
  | cons t rest => rfl

/-- The arguments of a method come to the types that the context makes of the parameters. -/
lemma finish_methodArguments (id : SymId) (m : Method) :
    (scene.methodArguments (scene.typeUpTo bound ctx) id m).finish catalog = (do
      let params ← m.paramsUnder (fun t => (scene.type t none).finish catalog) (scene.bogus id) ctx
      return "(" ++ params ++ ")") := by
  have hparams : (if scene.bogus id then Rendering.empty
      else paramList (scene.typeUpTo bound ctx) m.params m.varargs m.paramArray).finish catalog =
        m.paramsUnder (fun t => (scene.type t none).finish catalog) (scene.bogus id) ctx := by
    unfold Method.paramsUnder
    split
    · rfl
    · simp only [Rendering.finish_paramList, List.mapM_map, finish_typeUpTo h hb hle]
      rfl
  simp only [methodArguments, Rendering.finish_andThen, hparams, Rendering.finish_literal,
    Rendering.finish_examine]
  cases m.paramsUnder (fun t => (scene.type t none).finish catalog) (scene.bogus id) ctx with
  | error fault => rfl
  | ok params =>
    simp [bind, Except.bind, pure, Except.pure, String.append_assoc]

end

/-- **A method on an instantiation comes to its text there.**

**Proof sketch.** The step to the method displays four parts one behind the other: what stands in
front of it, its name, its own parameters and its arguments.  The first one is the instantiation as
it was given, by `instUpTo_of_over`, and the third one consists of the given types.  Each part
comes to its text, and the texts are joined. -/
lemma finish_symbol_on (h : scene.graph.Loaded) {id parent : SymId} {s : Symbol} {m : Method}
    (hs : scene.graph.find? id = some s) (hd : s.detail = .method m)
    (hparent : s.parent = some parent) (hm : m.Ordinary) {on : Inst}
    (hon : on.Over (scene.graph.levels parent)) {typeArgs : List Ty}
    (hlength : typeArgs.length = m.typeVars.length) (catalog : Catalog) :
    (scene.symbol id (some (.ofInst (some on) typeArgs)) true).finish catalog =
      m.textOn (fun t => (scene.type t none).finish catalog) s.name (scene.bogus id) on
        typeArgs := by
  obtain ⟨n, hn, hlarge⟩ := scene.walkBound_eq_succ
  have hle : n ≤ scene.walkBound := by omega
  obtain ⟨inst, hthis⟩ : ∃ inst, scene.graph.thisInst? parent = some inst := hon.exists_inst
  have henclosing : scene.enclosing (scene.plainUpTo n) (some (.ofInst (some on) typeArgs))
      s.parent = (scene.instUpTo n (on.subst none) >> .literal ".") := by
    rw [hparent, enclosing_eq_instUpTo h.toNested (by omega) hthis,
      instUpTo_of_over h.toNested n on hon hthis (List.append_nil on.argsAll).symm]
    rfl
  have hname (type : Ty → Rendering) : scene.methodName type s m = nameText s.name := by
    simp [methodName, hm.constructor, hm.destructor, hm.conversion, hm.operator, hm.impl]
  have hvars : m.typeVars.map (Ty.subst (some (.ofInst (some on) typeArgs))) = typeArgs := by
    obtain ⟨names, hnames⟩ := (h.method hs hd).typeVars
    rw [hnames] at hlength ⊢
    let ctx : Context := .ofInst (some on) typeArgs
    have hposition : (if true then ctx.ofMethod else ctx.ofType) = [] ++ typeArgs ++ [] :=
      (List.append_nil typeArgs).symm
    exact typeParams_subst hposition (by simpa [typeParams] using hlength)
  have hempty : m.typeVars.isEmpty = typeArgs.isEmpty := by
    rw [← hvars, List.isEmpty_map]
  have htarget : m.impl.target? = none := by simp [ExplicitImpl.target?, hm.impl]
  rw [symbol, hn, symbolUpTo_method hs hd htarget hm.property hm.event, if_pos rfl, henclosing,
    hname, Rendering.finish_andThen, Rendering.finish_andThen, Rendering.finish_andThen,
    Rendering.finish_andThen, finish_instUpTo h none catalog hlarge hle,
    finish_typeArgs h hlarge hle, finish_methodArguments h hlarge hle, hvars, hempty]
  unfold Method.textOn
  simp only [Rendering.finish_literal, bind_assoc, pure_bind, nameText, String.append_assoc]
  rfl

end Scene

namespace Document

/-- **A method that is shown on an instantiation is shown on exactly that instantiation**, after any
earlier calls: in an accepted document, an ordinary method of an aggregate on an instantiation that
follows the levels of the aggregate, with an argument for each of its own parameters.

**Proof sketch.** The context of an instantiation that follows the levels of the aggregate gives
back its arguments at the parameters of the aggregate, so what stands in front of the name is the
instantiation itself.  What earlier calls remember is true of the method and has no part in
types. -/
theorem format_methodOn {json : Json} {doc : Document} (hdoc : ofJson json = .ok doc)
    (display : Display) (examined : List SymId) {id parent : SymId} {s : Symbol} {m : Method}
    (hs : doc.graph.find? id = some s) (hd : s.detail = .method m)
    (hparent : s.parent = some parent) (hm : m.Ordinary) {on : Inst}
    (hon : on.Over (doc.graph.levels parent)) {typeArgs : List Ty}
    (hlength : typeArgs.length = m.typeVars.length) :
    let memo : Memo := Memo.examineAll [] doc.graph examined
    ((Argument.methodOn (some id) (some on) typeArgs).format doc.graph display memo).1 =
      (m.textOn (fun t => (Renderer.render ⟨.closed, memo⟩ doc.graph display (.type t none)).1)
        s.name (doc.graph.signatureBogus id) on typeArgs).map
          fun text => some ⟨some text, true⟩ := by
  intro memo
  have hloaded := (loaded_of_ofJson hdoc).graph
  let scene : Scene := ⟨doc.graph, display.niceNames, memo.isBogus doc.graph⟩
  have hscene : scene.graph.Loaded := hloaded
  have htype : (fun t => (Renderer.render ⟨.closed, memo⟩ doc.graph display (.type t none)).1) =
      fun t => (scene.type t none).finish display.catalog := by
    funext t
    exact Renderer.render_fst rfl doc.graph display _
  have hbogus : scene.bogus id = doc.graph.signatureBogus id := by
    rw [← Memo.isBogus_of_empty doc.graph examined]
  have hmethod := Scene.finish_symbol_on hscene hs hd hparent hm hon hlength display.catalog
  rw [htype, ← hbogus, ← hmethod]
  rfl

/-- A generic method of a generic struct in a generic class, with a parameter that collects the
remaining arguments and further ones behind it. -/
theorem format_methodOn_nested :
    ∃ doc id s m on, ofJson (.obj
        [("declarations", .arr [.obj [("kind", .str "class"), ("name", .str "Map"),
          ("type_params", .arr [.str "K"]),
          ("members", .arr [.obj [("kind", .str "struct"), ("name", .str "Entry"),
            ("type_params", .arr [.str "V"]),
            ("members", .arr [.obj [("kind", .str "method"), ("name", .str "Copy"),
              ("type_params", .arr [.str "R"]), ("param_array", .bool true),
              ("varargs", .bool true),
              ("params", .arr [.str "V", .obj [("array", .str "R")]])]])]])]])]) = .ok doc ∧
      doc.graph.find? id = some s ∧ s.detail = .method m ∧ m.Ordinary ∧
      (∃ parent, s.parent = some parent ∧ on.Over (doc.graph.levels parent)) ∧
      ([.nullable .void] : List Ty).length = m.typeVars.length ∧
      ((Argument.methodOn (some id) (some on) [.nullable .void]).format doc.graph {} []).1 =
        (m.textOn (fun t => (Renderer.render {} doc.graph {} (.type t none)).1) s.name
          (doc.graph.signatureBogus id) on [.nullable .void]).map
            (fun text => some ⟨some text, true⟩) ∧
      ((Argument.methodOn (some id) (some on) [.nullable .void]).format doc.graph {} []).1 =
        .ok (some ⟨some "Map<void>.Entry<void*>.Copy<void?>(void*, params void?[], ...)",
          true⟩) := by
  refine ⟨?doc, ((SymId.root.child (.member "Map" 0)).child (.member "Entry" 0)).child
      (.member "Copy" 0),
    ⟨some "Copy", some ((SymId.root.child (.member "Map" 0)).child (.member "Entry" 0)),
      .method
        { params := [.param (.number 1) false (some "V"),
            .array (.param (.number 0) true (some "R")) (.number 1) true]
          typeVars := [.param (.number 0) true (some "R")]
          varargs := true
          paramArray := true }⟩,
    _, .mk ((SymId.root.child (.member "Map" 0)).child (.member "Entry" 0)) [.pointer .void]
      (some (.mk (SymId.root.child (.member "Map" 0)) [.void] none)),
    ?hdoc, ?hs, rfl, ⟨rfl, rfl, rfl, rfl, rfl, rfl, rfl⟩, ⟨_, rfl, ?hon⟩, rfl,
    format_methodOn ?hdoc {} [] ?hs rfl rfl ⟨rfl, rfl, rfl, rfl, rfl, rfl, rfl⟩ ?hon rfl, ?htext⟩
  case hdoc => cbv; rfl
  case hs => cbv
  case hon =>
    refine ⟨⟨.structType, [.param (.number 1) false (some "V")], false⟩,
      [(SymId.root.child (.member "Map" 0), ⟨.classType, [.param (.number 0) false (some "K")],
        false⟩)], ?levels, rfl, _, rfl, rfl⟩
    case levels => cbv
  case htext => decide +kernel

end Document

end DisplayNames
