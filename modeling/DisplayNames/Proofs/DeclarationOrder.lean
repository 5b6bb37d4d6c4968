import DisplayNames.Proofs.ReorderedWalk
import DisplayNames.Proofs.SceneExtension

/-!
# The order of declarations

The order of the declarations of a document decides nothing if no two of them share a key.  The walk
then lists the same declarations in another order.  A table whose keys are distinct is looked up the
same way in every order, so every key denotes the same symbol, and every symbol has the same name,
kind and parent.  Signatures are filled in one by one, so they are the same as well; and so is what
the requests ask for and what they come to.

## Main definitions

* `DisplayNames.Document.Declared.entries` — the keys of a contribution with their symbols.

## Main results

* `DisplayNames.Document.registerAll_eq` — keys that are distinct are entered one behind the other.
* `DisplayNames.Document.resolveSignature_of_trimmed` — members do not influence signatures.
* `DisplayNames.Document.Stages.reordered` — a document with its declarations in another order.
* `DisplayNames.Document.declaration_order` — the order of declarations is irrelevant.
-/

set_option relaxedAutoImplicit false
set_option autoImplicit false

namespace DisplayNames

/-! ## Tables with distinct keys -/

namespace Table

variable {κ α : Type} [DecidableEq κ] {t u : Table κ α}

/-- A key that is free is entered at the end. -/
lemma insertIfNew_of_not_mem {key : κ} (h : key ∉ t.map Prod.fst) (value : α) :
    t.insertIfNew key value = t ++ [(key, value)] := by
  induction t with
  | nil => rfl
  | cons e rest ih =>
    rw [List.map_cons, List.mem_cons, not_or] at h
    rw [insertIfNew, if_neg (Ne.symm h.1), ih h.2, List.cons_append]

/-- A key that is free is entered at the end, no matter how. -/
lemma insert_of_not_mem {key : κ} (h : key ∉ t.map Prod.fst) (value : α) :
    t.insert key value = t ++ [(key, value)] := by
  induction t with
  | nil => rfl
  | cons e rest ih =>
    rw [List.map_cons, List.mem_cons, not_or] at h
    rw [insert, if_neg (Ne.symm h.1), ih h.2, List.cons_append]

/-- The order of entries with distinct keys decides nothing. -/
lemma get?_perm (h : t.Perm u) (hnodup : (t.map Prod.fst).Nodup) (key : κ) :
    u.get? key = t.get? key := by
  have hnodup' : (u.map Prod.fst).Nodup := (h.map Prod.fst).nodup_iff.1 hnodup
  ext value
  rw [get?_eq_some_iff hnodup', get?_eq_some_iff hnodup, h.mem_iff]

end Table

namespace Document

/-! ## Keys -/

/-- The keys of a contribution with their symbols, in the order in which they are entered. -/
def Declared.entries (d : Declared) : Registry :=
  (d.path, d.id) :: (d.explicitId.toList.map fun key => (key, d.id)) ++
    d.generated.map fun e => (e.path, e.id)

/-- The entries of a contribution are those of its keys. -/
lemma Declared.map_fst_entries (d : Declared) : d.entries.map Prod.fst = d.keys := by
  simp [entries, keys, Function.comp_def]

/-- The entries of several contributions are those of their keys. -/
lemma map_fst_flatMap_entries (all : List Declared) :
    (all.flatMap Declared.entries).map Prod.fst = all.flatMap Declared.keys := by
  rw [List.map_flatMap]
  exact congrArg (all.flatMap ·) (funext Declared.map_fst_entries)

/-- Paths that are distinct and free are entered one behind the other. -/
lemma generated_eq (registry : Registry) {generated : List Generated}
    (h : (registry.map Prod.fst ++ generated.map Generated.path).Nodup) :
    generated.foldl (fun registry g => registry.insertIfNew g.path g.id) registry =
      registry ++ generated.map fun e => (e.path, e.id) := by
  induction generated generalizing registry with
  | nil => simp
  | cons e rest ih =>
    have hfree : e.path ∉ registry.map Prod.fst := fun hmem =>
      (List.nodup_append.1 h).2.2 _ hmem _ List.mem_cons_self rfl
    rw [List.foldl_cons, Table.insertIfNew_of_not_mem hfree, ih _ (by simpa using h),
      List.append_assoc]
    rfl

/-- The keys of a declaration are entered one behind the other, if they are distinct and free.

**Proof sketch.** The path is entered first, then the explicit id, if there is one, and then what
is generated along with the declaration.  Each key is free when it is entered, so it goes behind
all others. -/
lemma register_eq {registry : Registry} {d : Declared}
    (h : (registry.map Prod.fst ++ d.keys).Nodup) :
    register registry d = .ok (registry ++ d.entries) := by
  have hpath : d.path ∉ registry.map Prod.fst := fun hmem =>
    (List.nodup_append.1 h).2.2 _ hmem _ List.mem_cons_self rfl
  unfold register
  rw [Table.insertIfNew_of_not_mem hpath]
  cases hexplicit : d.explicitId with
  | none =>
    have hdistinct : ((registry ++ [(d.path, d.id)]).map Prod.fst ++
        d.generated.map Generated.path).Nodup := by
      simpa [Declared.keys, hexplicit] using h
    have hgenerated := generated_eq _ hdistinct
    simp only [bind_eq_ok, pure_eq_ok, exists_eq_left', hgenerated, Declared.entries, hexplicit]
    rw [List.append_assoc]
    rfl
  | some key =>
    have hkeys : d.keys = d.path :: key :: d.generated.map Generated.path := by
      rw [Declared.keys, hexplicit]
      rfl
    rw [hkeys] at h
    have hkey : key ∉ (registry ++ [(d.path, d.id)]).map Prod.fst := by
      rw [List.append_cons] at h
      rw [List.map_append]
      exact fun hmem => (List.nodup_append.1 h).2.2 _ hmem _ List.mem_cons_self rfl
    have hdistinct : ((registry ++ [(d.path, d.id)] ++ [(key, d.id)]).map Prod.fst ++
        d.generated.map Generated.path).Nodup := by
      simpa using h
    have hgenerated := generated_eq _ hdistinct
    simp only [Registry.enterId, Table.get?_of_not_mem hkey, Table.insert_of_not_mem hkey,
      bind_eq_ok, pure_eq_ok, Except.ok.injEq, exists_eq_left', hgenerated, Declared.entries,
      hexplicit]
    simp

/-- **Keys that are distinct and free are entered one behind the other.** -/
theorem registerAll_eq (registry : Registry) {all : List Declared}
    (h : (registry.map Prod.fst ++ all.flatMap Declared.keys).Nodup) :
    registerAll registry all = .ok (registry ++ all.flatMap Declared.entries) := by
  induction all generalizing registry with
  | nil => simp [registerAll]
  | cons d rest ih =>
    rw [List.flatMap_cons, ← List.append_assoc] at h
    have hrest : ((registry ++ d.entries).map Prod.fst ++ rest.flatMap Declared.keys).Nodup := by
      rwa [List.map_append, d.map_fst_entries]
    rw [registerAll, register_eq (List.nodup_append.1 h).1]
    dsimp only
    rw [ih _ hrest, List.flatMap_cons, List.append_assoc]

/-! ## Signatures -/

/-- Members do not influence the signature of their declaration.

**Proof sketch.** A signature is read from the parameters, the result and the explicit slot among
the fields.  Each of these keys is kept when the members are trimmed away. -/
theorem resolveSignature_of_trimmed (names : Names) {d d' : Declared}
    (h : d'.trimmed = d.trimmed) : resolveSignature names d' = resolveSignature names d := by
  obtain ⟨id, symbol, path, explicitId, generated, pending⟩ := d
  obtain ⟨id', symbol', path', explicitId', generated', pending'⟩ := d'
  simp only [Declared.trimmed, Declared.mk.injEq] at h
  obtain ⟨rfl, rfl, rfl, rfl, rfl, hpending⟩ := h
  cases pending with
  | none =>
    obtain rfl : pending' = none := by simpa using hpending
    rfl
  | some pending =>
    obtain ⟨fields, scope⟩ := pending
    obtain ⟨⟨fields', scope'⟩, rfl, hsame⟩ := Option.map_eq_some_iff.1 hpending
    obtain ⟨htrim, rfl⟩ := Pending.mk.inj hsame
    have hparams : resolveList names scope' fields' "params" =
        resolveList names scope' fields "params" := by
      rw [resolveList, resolveList, listField_of_trim htrim.symm (by decide)]
    have hreturns : resolveResult names ⟨fields', scope'⟩ =
        resolveResult names ⟨fields, scope'⟩ := by
      rw [resolveResult, resolveResult, get?_of_trim htrim.symm (by decide)]
    have himpl : resolveImpl names ⟨fields', scope'⟩ = resolveImpl names ⟨fields, scope'⟩ := by
      rw [resolveImpl, resolveImpl, fieldD_of_trim htrim.symm (by decide),
        get?_of_trim htrim.symm (by decide)]
    cases hdetail : symbol'.detail with
    | method m => simp only [resolveSignature, hdetail, hparams, hreturns, himpl]
    | property p => simp only [resolveSignature, hdetail, hparams, himpl]
    | _ => simp only [resolveSignature, hdetail]

/-- All signatures can be filled in if each can. -/
lemma exists_resolveSignatures {names : Names} {all : List Declared}
    (h : ∀ d ∈ all, ∃ s, resolveSignature names d = .ok s) :
    ∃ signed, resolveSignatures names all = .ok signed := by
  induction all with
  | nil => exact ⟨[], rfl⟩
  | cons d rest ih =>
    obtain ⟨s, hs⟩ := h d List.mem_cons_self
    obtain ⟨signed, hsigned⟩ := ih fun d' hd' => h d' (List.mem_cons_of_mem _ hd')
    refine ⟨{ d with symbol := s } :: signed, ?_⟩
    simp only [resolveSignatures, bind_eq_ok, pure_eq_ok]
    exact ⟨s, hs, signed, hsigned, rfl⟩

/-- Every declaration gets its signature. -/
lemma signed_of_mem {names : Names} {all signed : List Declared}
    (h : resolveSignatures names all = .ok signed) {d : Declared} (hd : d ∈ all) :
    ∃ s, resolveSignature names d = .ok s ∧ { d with symbol := s } ∈ signed := by
  induction all generalizing signed with
  | nil => cases hd
  | cons d' rest ih =>
    simp only [resolveSignatures, bind_eq_ok, pure_eq_ok] at h
    obtain ⟨s, hs, signed', hsigned, rfl⟩ := h
    rcases List.mem_cons.1 hd with rfl | hd
    · exact ⟨s, hs, List.mem_cons_self⟩
    · obtain ⟨s', hs', hmem⟩ := ih hsigned hd
      exact ⟨s', hs', List.mem_cons_of_mem _ hmem⟩

/-! ## Declarations in another order -/

section

variable {all all' : List Declared}
  (hperm : (all.map Declared.trimmed).Perm (all'.map Declared.trimmed))
include hperm

/-- A declaration is listed in the other order as well. -/
lemma mem_of_trimmed_perm {d : Declared} (hd : d ∈ all) :
    ∃ d' ∈ all', d'.trimmed = d.trimmed :=
  List.mem_map.1 (hperm.mem_iff.1 (List.mem_map_of_mem hd))

/-- What is collected from all contributions without their pending parts is collected in another
order. -/
lemma flatMap_trimmed_perm {α : Type} {f : Declared → List α} (hf : ∀ d, f d.trimmed = f d) :
    (all.flatMap f).Perm (all'.flatMap f) := by
  have hmap (all : List Declared) : all.flatMap f = (all.map Declared.trimmed).flatMap f := by
    rw [List.flatMap_map]
    exact congrArg (all.flatMap ·) (funext fun d => (hf d).symm)
  rw [hmap, hmap all']
  exact hperm.flatMap_right f

/-- The keys are entered in the other order as well, for the same symbols. -/
lemma registerAll_perm (hkeys : (all.flatMap Declared.keys).Nodup) {registry : Registry}
    (h : registerAll [] all = .ok registry) :
    ∃ registry', registerAll [] all' = .ok registry' ∧
      ∀ key, registry'.get? key = registry.get? key := by
  have hentries := flatMap_trimmed_perm hperm (f := Declared.entries) fun _ => rfl
  have hkeys' : (all'.flatMap Declared.keys).Nodup :=
    (flatMap_trimmed_perm hperm (f := Declared.keys) fun _ => rfl).nodup_iff.1 hkeys
  obtain rfl : all.flatMap Declared.entries = registry :=
    Except.ok.inj ((registerAll_eq [] hkeys).symm.trans h)
  refine ⟨all'.flatMap Declared.entries, registerAll_eq [] hkeys', ?_⟩
  exact Table.get?_perm hentries (by rwa [map_fst_flatMap_entries])

/-- Every symbol is the same before the signatures are filled in. -/
lemma declaredGraph_perm
    (hnodup : (SymId.root :: (all.flatMap Declared.symbols).map Prod.fst).Nodup) (id : SymId) :
    (declaredGraph all').find? id = (declaredGraph all).find? id := by
  have hsymbols : (declaredGraph all).symbols.Perm (declaredGraph all').symbols :=
    (flatMap_trimmed_perm hperm fun _ => rfl).cons _
  exact Table.get?_perm hsymbols hnodup id

/-- The signatures can be filled in in the other order as well, and they are the same.

**Proof sketch.** Each declaration of the second walk is one of the first walk up to its members,
which have no part in its signature.  So its signature can be resolved over the larger names, and
every listed symbol is listed on the other side as well. -/
lemma resolveSignatures_perm {names names' : Names} (hwithin : names.Within names')
    (hnames : names.Sound) (hgraph : names'.graph.Rooted) {signed : List Declared}
    (h : resolveSignatures names all = .ok signed) :
    ∃ signed', resolveSignatures names' all' = .ok signed' ∧
      ∀ e ∈ (declaredGraph signed).symbols, e ∈ (declaredGraph signed').symbols := by
  have hcarries {d d' : Declared} {s : Symbol} (htrimmed : d'.trimmed = d.trimmed)
      (hs : resolveSignature names d = .ok s) : resolveSignature names' d' = .ok s := by
    rw [resolveSignature_of_trimmed names' htrimmed]
    exact hwithin.resolveSignature hnames hgraph d s hs
  obtain ⟨signed', hsigned'⟩ : ∃ signed', resolveSignatures names' all' = .ok signed' := by
    refine exists_resolveSignatures fun d' hd' => ?_
    obtain ⟨d, hd, htrimmed⟩ := mem_of_trimmed_perm hperm.symm hd'
    obtain ⟨s, hs, _⟩ := signed_of_mem h hd
    exact ⟨s, hcarries htrimmed.symm hs⟩
  refine ⟨signed', hsigned', fun e he => ?_⟩
  rcases List.mem_cons.1 he with rfl | he
  · exact List.mem_cons_self
  obtain ⟨d, hd, hcases⟩ := symbol_of_resolveSignatures h he
  obtain ⟨d', hd', htrimmed⟩ := mem_of_trimmed_perm hperm hd
  obtain ⟨s', hs', hmem⟩ := signed_of_mem hsigned' hd'
  have hid : d'.trimmed.id = d.trimmed.id := by rw [htrimmed]
  have hgenerated : d'.trimmed.generated = d.trimmed.generated := by rw [htrimmed]
  refine List.mem_cons_of_mem _ (List.mem_flatMap.2 ⟨_, hmem, ?_⟩)
  rcases hcases with ⟨heq, hs⟩ | ⟨g, hg, heq, hsymbol⟩
  · obtain rfl : e.2 = s' := Except.ok.inj ((hcarries htrimmed hs).symm.trans hs')
    refine List.mem_cons.2 (.inl (Prod.ext ?_ rfl))
    exact heq.trans hid.symm
  · refine List.mem_cons_of_mem _ (List.mem_map.2 ⟨g, ?_, ?_⟩)
    · exact hgenerated ▸ hg
    · rw [← heq, ← hsymbol]

end

/-- A symbol is the same in two graphs if it is the same before the signatures are filled in, and
the first graph lies within the second one. -/
lemma Holds.find?_eq_of_within {g g' : Graph} {all all' : List Declared} (h : Holds g all)
    (h' : Holds g' all') (hwithin : g.Within g') {id : SymId}
    (hdeclared : (declaredGraph all').find? id = (declaredGraph all).find? id) :
    g'.find? id = g.find? id := by
  cases hfind : g.find? id with
  | some s => exact hwithin.find? hfind
  | none =>
    rw [← h'.find?_unsigned, ← h.find?_unsigned, hfind] at hdeclared
    exact Option.map_eq_none_iff.1 hdeclared

/-! ## Documents -/

/-- **A document with its declarations in another order** goes through all stages.  It has the same
keys for the same symbols, the symbols have the same details, and the requests are the same.

**Proof sketch.** The walks list the same in another order.  The keys are distinct, and so are the
identities of the symbols, so keys and symbols are looked up as before.  Therefore every signature
is filled in as before, and the requests are read as before. -/
theorem Stages.reordered {fields : List (String × Json)} {doc : Document}
    {declarations declarations' : List Json} {signed : List Declared} {items : List Json}
    (h : Stages fields doc declarations signed items)
    (horder : Reordered declarations declarations')
    (hkeys : (declareAll .top [] declarations).keys.Nodup) :
    ∃ doc' signed',
      Stages (Table.insert fields "declarations" (.arr declarations')) doc' declarations' signed'
        items ∧
      (∀ key, doc'.registry.get? key = doc.registry.get? key) ∧
      (∀ id, doc'.graph.find? id = doc.graph.find? id) ∧ doc'.requests = doc.requests := by
  obtain ⟨hstop', hperm⟩ := horder.rearranged .top [] h.stop hkeys
  obtain ⟨registry', hregistry', hget⟩ := registerAll_perm hperm hkeys h.registry_eq
  have hdeclared := declaredGraph_perm hperm (nodup_ids_declareAll h.stop)
  -- signatures: before they are filled in, all names denote the same
  have hholds' := holds_of_unsigned (fun _ hd => located_of_mem hstop' hd)
    (nodup_ids_declareAll hstop') rfl
  have hwithin : Names.Within
      ⟨declaredGraph (declareAll .top [] declarations).declared, doc.registry⟩
      ⟨declaredGraph (declareAll .top [] declarations').declared, registry'⟩ :=
    ⟨⟨rfl, fun hs => (hdeclared _).trans hs⟩, fun hkey => (hget _).trans hkey⟩
  obtain ⟨signed', hsigned', hmem⟩ := resolveSignatures_perm hperm hwithin h.sound_declared
    hholds'.nested.toRooted h.signed_eq
  -- requests: afterwards all symbols are the same
  have hsigned := holds_of_unsigned (fun _ hd => located_of_mem hstop' hd)
    (nodup_ids_declareAll hstop') (resolveSignatures_unsigned hsigned')
  have hgraph : doc.graph.Within (declaredGraph signed') := by
    refine ⟨by rw [h.graph_eq]; rfl, fun hs => hsigned.find?_eq_some.2 (hmem _ ?_)⟩
    rw [← h.graph_eq]
    exact h.holds.find?_eq_some.1 hs
  have hrequests : readRequests ⟨declaredGraph signed', registry'⟩ 0 items = .ok doc.requests := by
    have hnames : Names.Within ⟨doc.graph, doc.registry⟩ ⟨declaredGraph signed', registry'⟩ :=
      ⟨hgraph, fun hkey => (hget _).trans hkey⟩
    exact hnames.readRequests h.sound hsigned.nested.toRooted 0 items _ h.requests_eq
  refine ⟨⟨declaredGraph signed', registry', doc.requests⟩, signed', ?_, hget, fun id => ?_, rfl⟩
  · refine ⟨listField_insert fields _ _, hstop', hregistry', hsigned', rfl, ?_, hrequests⟩
    rw [listField_insert_of_ne (by decide)]
    exact h.items_eq
  · exact h.holds.find?_eq_of_within hsigned hgraph (hdeclared id)

/-- **The order of declarations is irrelevant.**  If a document is accepted and no key is registered
twice, then it is accepted as well with its declarations in another order, at the top and among the
members of any declaration.  It has the same keys, which denote the same symbols; it makes the same
requests; and each of them comes to the same text or error.

**Proof sketch.** Most of the work is in `Stages.reordered`: the other document goes through the
same stages, with a registry and a graph that give the same for each key.  So the first graph is
within the second one, and what is rendered over a graph is rendered alike over a larger one. -/
theorem declaration_order {fields : List (String × Json)} {declarations declarations' : List Json}
    {doc : Document} (hdoc : ofJson (.obj fields) = .ok doc)
    (hdeclarations : Json.listField fields "declarations" = .ok declarations)
    (horder : Reordered declarations declarations')
    (hkeys : ((listed (.obj fields)).flatMap Declared.keys).Nodup) :
    ∃ doc', ofJson (.obj (Table.insert fields "declarations" (.arr declarations'))) = .ok doc' ∧
      (∀ key, doc'.registry.get? key = doc.registry.get? key) ∧
      (∀ id, doc'.graph.find? id = doc.graph.find? id) ∧
      doc'.requests = doc.requests ∧
      ∀ request ∈ doc.requests, ∀ (display : Display) (r r' : Renderer),
        r.session.isOpen = false → r'.session.isOpen = false →
        r.memo.Sound doc.graph → r'.memo.Sound doc'.graph →
          (r'.render doc'.graph display request.subject).1 =
            (r.render doc.graph display request.subject).1 := by
  obtain ⟨declarations₀, signed, items, h⟩ := ofJson_obj_eq_ok.1 hdoc
  obtain rfl : declarations = declarations₀ :=
    Except.ok.inj (hdeclarations.symm.trans h.declarations_eq)
  rw [h.listed_eq] at hkeys
  obtain ⟨doc', signed', h', hget, hfind, hrequests⟩ := h.reordered horder hkeys
  have hdoc' := ofJson_obj_eq_ok.2 ⟨declarations', signed', items, h'⟩
  refine ⟨doc', hdoc', hget, hfind, hrequests,
    fun request hrequest display r r' hr hr' hm hm' => ?_⟩
  have hloaded := loaded_of_ofJson hdoc
  have hwithin : doc.graph.Within doc'.graph := by
    refine ⟨?_, fun hs => (hfind _).trans hs⟩
    rw [h.graph_eq, h'.graph_eq]
    rfl
  exact (hloaded.requests request hrequest).render_within hwithin hloaded.graph
    (loaded_of_ofJson hdoc').graph display hr hr' hm hm'

/-- A class that implements a method of a later interface, with its members and the two declarations
in the other order: the interface comes first, and the implementation is still resolved. -/
theorem declaration_order_forward :
    let put : Json := .obj [("kind", .str "method"), ("name", .str "Put"),
      ("explicit_impl", .obj [("type", .str "Sink"), ("member", .str "Sink.Put")])]
    let size : Json := .obj [("kind", .str "field"), ("name", .str "size")]
    let box : List (String × Json) := [("kind", .str "class"), ("name", .str "Box"),
      ("members", .arr [put, size])]
    let sink : Json := .obj [("kind", .str "interface"), ("name", .str "Sink"),
      ("members", .arr [.obj [("kind", .str "method"), ("name", .str "Put")]])]
    let reordered : Json := .obj (Table.insert box "members" (.arr [size, put]))
    let fields : List (String × Json) := [("declarations", .arr [.obj box, sink]),
      ("render", .arr [.obj [("symbol", .str "Box.Put")]])]
    ∃ doc doc', ofJson (.obj fields) = .ok doc ∧
      Json.listField fields "declarations" = .ok [.obj box, sink] ∧
      Reordered [.obj box, sink] [sink, reordered] ∧
      ((listed (.obj fields)).flatMap Declared.keys).Nodup ∧
      ofJson (.obj (Table.insert fields "declarations" (.arr [sink, reordered]))) = .ok doc' ∧
      (∀ request ∈ doc.requests,
        (({} : Renderer).render doc'.graph {} request.subject).1 =
          (({} : Renderer).render doc.graph {} request.subject).1) ∧
      (doc.requests.map fun request =>
        (({} : Renderer).render doc.graph {} request.subject).1) = [.ok "Box.Sink.Put()"] := by
  intro put size box sink reordered fields
  have horder : Reordered [.obj box, sink] [sink, reordered] :=
    .trans (.members [sink] rfl (.of_perm (.swap size put []))) (.of_perm (.swap sink reordered []))
  have hkeys : ((listed (.obj fields)).flatMap Declared.keys).Nodup := by decide +kernel
  obtain ⟨doc, hdoc, htexts⟩ : ∃ doc, ofJson (.obj fields) = .ok doc ∧
      (doc.requests.map fun request =>
        (({} : Renderer).render doc.graph {} request.subject).1) = [.ok "Box.Sink.Put()"] := by
    dsimp only [fields, box, sink, put, size]
    refine ⟨?doc, ?hdoc, ?htexts⟩
    case hdoc => exact rfl
    case htexts => rfl
  obtain ⟨doc', hdoc', _, _, _, hrender⟩ := declaration_order hdoc rfl horder hkeys
  exact ⟨doc, doc', hdoc, rfl, horder, hkeys, hdoc', fun request hrequest =>
    hrender request hrequest {} {} {} rfl rfl (.empty _) (.empty _), htexts⟩

end Document

end DisplayNames
