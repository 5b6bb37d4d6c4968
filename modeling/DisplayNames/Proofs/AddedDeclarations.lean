import DisplayNames.Proofs.NamesExtension
import DisplayNames.Proofs.SceneExtension

/-!
# Added declarations

A document with more declarations behind its own has everything that it had without them.  The walk
lists the added declarations last, and which of several siblings a declaration is depends on earlier
ones alone.  A key that is entered is never rebound, neither by a path nor by an explicit id.  So
the keys of the smaller document keep their symbols, its types resolve to what they resolved to, its
requests ask for what they asked for and come to what they came to.

## Main definitions

* `DisplayNames.Document.Registry.Keeps` — every key keeps its symbol.

## Main results

* `DisplayNames.Document.declareAll_append` — a walk over more declarations.
* `DisplayNames.Document.Registry.Keeps.registerAll` — declarations rebind no key.
* `DisplayNames.Document.added_declarations` — added declarations change no name.
-/

set_option relaxedAutoImplicit false
set_option autoImplicit false

namespace DisplayNames

namespace Document

/-! ## Walks -/

/-- Walks are put together from left to right or from right to left. -/
lemma Listing.append_assoc (a b c : Listing) : a ++ b ++ c = a ++ (b ++ c) := by
  obtain ⟨declared, stop⟩ := a
  obtain ⟨declared', stop'⟩ := b
  show append (append _ _) _ = append _ (append _ _)
  cases stop with
  | some error => rfl
  | none =>
    cases stop' with
    | some error => rfl
    | none => simp only [append, List.append_assoc]

/-- A walk over two lists goes over the first and then, behind its siblings, over the second. -/
theorem declareAll_append (place : Place) (before : List String) (front back : List Json) :
    declareAll place before (front ++ back) =
      declareAll place before front ++
        declareAll place ((front.map memberName).reverse ++ before) back := by
  induction front generalizing before with
  | nil =>
    rw [List.nil_append, declareAll]
    rfl
  | cons declaration rest ih =>
    have hbefore : ((declaration :: rest).map memberName).reverse ++ before =
        (rest.map memberName).reverse ++ (memberName declaration :: before) := by
      rw [List.map_cons, List.reverse_cons, List.append_assoc, List.singleton_append]
    rw [List.cons_append, declareAll, declareAll, ih, hbefore, Listing.append_assoc]

/-! ## Keys -/

/-- Every key keeps its symbol. -/
def Registry.Keeps (registry registry' : Registry) : Prop :=
  ∀ key id, registry.get? key = some id → registry'.get? key = some id

namespace Registry.Keeps

variable {registry registry' registry'' : Registry}

/-- All keys keep their symbols through two changes if they do through each. -/
lemma trans (h : registry.Keeps registry') (h' : registry'.Keeps registry'') :
    registry.Keeps registry'' :=
  fun key id hget => h' key id (h key id hget)

/-- A path that is entered rebinds no key. -/
lemma insertIfNew (registry : Registry) (path : String) (id : SymId) :
    registry.Keeps (registry.insertIfNew path id) := by
  intro key other hget
  rw [Table.get?_insertIfNew]
  split
  · rename_i hkey
    rw [hkey, hget, Option.getD_some]
  · exact hget

/-- The paths of what is generated along with a declaration rebind no key. -/
lemma generated (registry : Registry) (generated : List Generated) :
    registry.Keeps
      (generated.foldl (fun registry g => registry.insertIfNew g.path g.id) registry) := by
  induction generated generalizing registry with
  | nil => exact fun _ _ h => h
  | cons e rest ih => exact (insertIfNew registry e.path e.id).trans (ih _)

/-- An explicit id that is entered rebinds no key. -/
lemma enterId {key : String} {id : SymId} (h : Registry.enterId registry key id = .ok registry') :
    registry.Keeps registry' := by
  unfold Registry.enterId at h
  split at h
  · rename_i hfree
    rw [Except.ok.injEq] at h
    intro other id' hget
    have hne : key ≠ other := by
      rintro rfl
      rw [hfree] at hget
      cases hget
    rw [← h, Table.get?_insert, if_neg hne, hget]
  · split at h
    · rw [Except.ok.injEq] at h
      exact h ▸ fun _ _ hget => hget
    · cases h

/-- A declaration rebinds no key. -/
lemma register {d : Declared} (h : register registry d = .ok registry') :
    registry.Keeps registry' := by
  have hpath := insertIfNew registry d.path d.id
  unfold Document.register at h
  cases hexplicit : d.explicitId with
  | none =>
    simp only [hexplicit, bind_eq_ok, pure_eq_ok, exists_eq_left'] at h
    exact h ▸ hpath.trans (generated _ d.generated)
  | some key =>
    simp only [hexplicit, bind_eq_ok, pure_eq_ok] at h
    obtain ⟨entered, hentered, rfl⟩ := h
    exact (hpath.trans (enterId hentered)).trans (generated _ d.generated)

/-- **Declarations rebind no key.** -/
theorem registerAll {all : List Declared} (h : registerAll registry all = .ok registry') :
    registry.Keeps registry' := by
  induction all generalizing registry with
  | nil =>
    rw [Document.registerAll, Except.ok.injEq] at h
    exact h ▸ fun _ _ hget => hget
  | cons d rest ih =>
    unfold Document.registerAll at h
    split at h
    · cases h
    · rename_i entered hentered
      exact (register hentered).trans (ih h)

end Registry.Keeps

/-- The keys of more declarations are entered behind those of the first ones. -/
lemma registerAll_append {front back : List Declared} {registry registry' : Registry}
    (h : registerAll registry (front ++ back) = .ok registry') :
    ∃ entered, registerAll registry front = .ok entered ∧
      registerAll entered back = .ok registry' := by
  induction front generalizing registry with
  | nil => exact ⟨registry, rfl, h⟩
  | cons d rest ih =>
    rw [List.cons_append, registerAll] at h
    split at h
    · cases h
    · rename_i next hnext
      obtain ⟨entered, hfront, hback⟩ := ih h
      refine ⟨entered, ?_, hback⟩
      rw [registerAll, hnext]
      exact hfront

/-! ## Graphs -/

/-- A graph lies within the graph of more declarations. -/
lemma declaredGraph_within (front back : List Declared) :
    (declaredGraph front).Within (declaredGraph (front ++ back)) where
  root_eq := rfl
  find? {id s} hs := by
    have hsymbols : (declaredGraph (front ++ back)).symbols =
        (declaredGraph front).symbols ++ back.flatMap Declared.symbols := by
      simp [declaredGraph]
    rw [Graph.find?] at hs ⊢
    rw [hsymbols, Table.get?_append, hs, Option.some_or]

/-- The signatures of more declarations are filled in behind those of the first ones. -/
lemma resolveSignatures_append {names : Names} {front back signed : List Declared}
    (h : resolveSignatures names (front ++ back) = .ok signed) :
    ∃ signed₁ signed₂, resolveSignatures names front = .ok signed₁ ∧
      signed = signed₁ ++ signed₂ := by
  induction front generalizing signed with
  | nil => exact ⟨[], signed, rfl, rfl⟩
  | cons d rest ih =>
    simp only [List.cons_append, resolveSignatures, bind_eq_ok, pure_eq_ok] at h
    obtain ⟨symbol, hsymbol, rest', hrest, rfl⟩ := h
    obtain ⟨signed₁, signed₂, hsigned, rfl⟩ := ih hrest
    refine ⟨{ d with symbol } :: signed₁, signed₂, ?_, rfl⟩
    simp only [resolveSignatures, bind_eq_ok, pure_eq_ok]
    exact ⟨symbol, hsymbol, signed₁, hsigned, rfl⟩

/-! ## Documents -/

/-- What two documents have if the second one has the declarations of the first one and others
behind them, and the same requests: the walk, the names and the requests of the first one.

**Proof sketch.** Three prefixes in a row.  The walk over the declarations of the first document is
a prefix of the longer walk.  Entering its keys comes first and what is entered later rebinds none
of them, so the registries agree on them.  Resolving signatures and requests carries over from the
smaller graph and registry to the larger ones. -/
lemma Stages.within {fields fields' : List (String × Json)} {doc doc' : Document}
    {declarations extra : List Json} {signed signed' : List Declared} {items : List Json}
    (h : Stages fields doc declarations signed items)
    (h' : Stages fields' doc' (declarations ++ extra) signed' items) :
    (declareAll .top [] declarations).declared <+:
        (declareAll .top [] (declarations ++ extra)).declared ∧
      Names.Within ⟨doc.graph, doc.registry⟩ ⟨doc'.graph, doc'.registry⟩ ∧
        doc'.requests = doc.requests := by
  have hwalk := declareAll_append .top [] declarations extra
  have hstop := h'.stop
  rw [hwalk] at hstop
  obtain ⟨_, _, hall⟩ := Listing.stop_append_eq_none hstop
  rw [← hwalk] at hall
  -- keys: those of the added declarations come last and rebind none
  have hregistered := h'.registry_eq
  rw [hall] at hregistered
  obtain ⟨entered, hentered, hrest⟩ := registerAll_append hregistered
  obtain rfl : doc.registry = entered := Except.ok.inj (h.registry_eq.symm.trans hentered)
  have hkeeps := Registry.Keeps.registerAll hrest
  -- signatures: they carry over to the graph of all declarations
  have hdeclared : Names.Within
      ⟨declaredGraph (declareAll .top [] declarations).declared, doc.registry⟩
      ⟨declaredGraph (declareAll .top [] (declarations ++ extra)).declared, doc'.registry⟩ :=
    ⟨hall ▸ declaredGraph_within _ _, fun hget => hkeeps _ _ hget⟩
  have hcarried := hdeclared.resolveSignatures h.sound_declared h'.sound_declared.nested.toRooted
    _ _ h.signed_eq
  have hsigned := h'.signed_eq
  rw [hall] at hsigned hcarried
  obtain ⟨signed₁, signed₂, hfront, rfl⟩ := resolveSignatures_append hsigned
  obtain rfl : signed = signed₁ := Except.ok.inj (hcarried.symm.trans hfront)
  -- requests: they are resolved against the graphs with signatures
  have hnames : Names.Within ⟨doc.graph, doc.registry⟩ ⟨doc'.graph, doc'.registry⟩ := by
    refine ⟨?_, fun hget => hkeeps _ _ hget⟩
    rw [h.graph_eq, h'.graph_eq]
    exact declaredGraph_within _ _
  have hrequests := hnames.readRequests h.sound h'.sound.nested.toRooted 0 items _ h.requests_eq
  exact ⟨hall ▸ List.prefix_append _ _, hnames,
    Except.ok.inj (h'.requests_eq.symm.trans hrequests)⟩

/-- **Added declarations change no name.**  If a document is accepted, and it is accepted again with
more declarations at the end of its list, whatever their ids and paths are, then every key denotes
the symbol that it denoted, with the same details; the document makes the same requests; and each of
them comes to the same text or error.

**Proof sketch.** By `Stages.within` the registry and the graph of the first document are within
those of the second one, and the requests are the same.  What is rendered over a graph is rendered
alike over a larger one. -/
theorem added_declarations {fields : List (String × Json)} {declarations extra : List Json}
    {doc doc' : Document} (hdoc : ofJson (.obj fields) = .ok doc)
    (hdeclarations : Json.listField fields "declarations" = .ok declarations)
    (hdoc' : ofJson (.obj (Table.insert fields "declarations" (.arr (declarations ++ extra)))) =
      .ok doc') :
    listed (.obj fields) <+:
        listed (.obj (Table.insert fields "declarations" (.arr (declarations ++ extra)))) ∧
      (∀ key id, doc.registry.get? key = some id →
        doc'.registry.get? key = some id ∧ doc'.graph.find? id = doc.graph.find? id) ∧
      doc'.requests = doc.requests ∧
      ∀ request ∈ doc.requests, ∀ (display : Display) (r r' : Renderer),
        r.session.isOpen = false → r'.session.isOpen = false →
        r.memo.Sound doc.graph → r'.memo.Sound doc'.graph →
          (r'.render doc'.graph display request.subject).1 =
            (r.render doc.graph display request.subject).1 := by
  obtain ⟨declarations', signed, items, h⟩ := ofJson_obj_eq_ok.1 hdoc
  obtain rfl : declarations = declarations' :=
    Except.ok.inj (hdeclarations.symm.trans h.declarations_eq)
  obtain ⟨all, signed', items', h'⟩ := ofJson_obj_eq_ok.1 hdoc'
  obtain rfl : declarations ++ extra = all :=
    Except.ok.inj ((listField_insert fields _ _).symm.trans h'.declarations_eq)
  have hitems := h'.items_eq
  rw [listField_insert_of_ne (by decide)] at hitems
  obtain rfl : items = items' := Except.ok.inj (h.items_eq.symm.trans hitems)
  obtain ⟨hlisted, hnames, hrequests⟩ := h.within h'
  refine ⟨?_, fun key id hget => ?_, hrequests,
    fun request hrequest display r r' hr hr' hm hm' => ?_⟩
  · rw [h.listed_eq, h'.listed_eq]
    exact hlisted
  · obtain ⟨s, hs⟩ := h.sound.known hget
    exact ⟨hnames.registry hget, hnames.graph.find?_eq hs⟩
  · have hloaded := loaded_of_ofJson hdoc
    exact (hloaded.requests request hrequest).render_within hnames.graph hloaded.graph
      (loaded_of_ofJson hdoc').graph display hr hr' hm hm'

/-- A second class under the path of the first one: the first one keeps its path and the text of its
method. -/
theorem added_declarations_collision :
    let box : Json := .obj [("kind", .str "class"), ("name", .str "Box"),
      ("members", .arr [.obj [("kind", .str "method"), ("name", .str "Put"),
        ("params", .arr [.str "Box"])]])]
    let other : Json := .obj [("kind", .str "class"), ("name", .str "Box"), ("id", .str "other"),
      ("members", .arr [.obj [("kind", .str "method"), ("name", .str "Put")]])]
    let fields : List (String × Json) := [("declarations", .arr [box]),
      ("render", .arr [.obj [("symbol", .str "Box.Put")]])]
    ∃ doc doc', ofJson (.obj fields) = .ok doc ∧
      Json.listField fields "declarations" = .ok [box] ∧
      ofJson (.obj (Table.insert fields "declarations" (.arr ([box] ++ [other])))) = .ok doc' ∧
      (∀ request ∈ doc.requests,
        (({} : Renderer).render doc'.graph {} request.subject).1 =
          (({} : Renderer).render doc.graph {} request.subject).1) ∧
      (doc.requests.map fun request =>
        (({} : Renderer).render doc.graph {} request.subject).1) = [.ok "Box.Put(Box)"] ∧
      doc'.registry.get? "other" = some (SymId.root.child (.member "Box" 1)) := by
  dsimp only
  refine ⟨?doc, ?doc', ?hdoc, rfl, ?hdoc', fun request hrequest =>
    (added_declarations ?hdoc rfl ?hdoc').2.2.2 request hrequest {} {} {} rfl rfl (.empty _)
      (.empty _), ?htexts, ?hkey⟩
  case hdoc => exact rfl
  case hdoc' => exact rfl
  case htexts => rfl
  case hkey => rfl

end Document

end DisplayNames
