import DisplayNames.Proofs.DistinctKeys
import DisplayNames.Proofs.LoadedDocument
import DisplayNames.Proofs.TypeLayers
import DisplayNames.Proofs.WrittenTypes

/-!
# Writing types

Every type over a document can be written in it, and what is written is resolved to just that type.
All it takes is that the declarations in the type have keys.  Ranks, flags, lists of arguments and
enclosing instantiations are written even where they could be left out, so that no default comes
into play; and types are written as objects, so that no name is taken for that of a type parameter
in scope.

## Main definitions

* `DisplayNames.Document.Registry.keyOf?` — a key of a symbol.
* `DisplayNames.Document.encode` — a type as a type object.
* `DisplayNames.Ty.Keyed` — the declarations that a type mentions have keys.

## Main results

* `DisplayNames.Document.resolve_encode` — a type object is resolved to the type that it was written
  for.
* `DisplayNames.Document.distinctKeys_encode` — no key is written twice.
* `DisplayNames.Document.exists_written` — every type over a document can be written in it.
-/

set_option relaxedAutoImplicit false
set_option autoImplicit false

namespace DisplayNames

namespace Document

/-! ## Keys -/

/-- A key of a symbol, the first one if it has several. -/
def Registry.keyOf? (registry : Registry) (id : SymId) : Option String :=
  (registry.map Prod.fst).find? fun key => registry.get? key = some id

/-- A symbol is found under its key. -/
lemma Registry.lookup_of_keyOf? {registry : Registry} {id : SymId} {key : String}
    (h : registry.keyOf? id = some key) : registry.lookup key = .ok id := by
  have hget : registry.get? key = some id := by simpa using List.find?_some h
  rw [lookup, hget]

/-- A symbol that is found under some key has a key. -/
lemma Registry.exists_keyOf? {registry : Registry} {id : SymId} {key : String}
    (h : registry.get? key = some id) : ∃ key', registry.keyOf? id = some key' := by
  rw [← Option.isSome_iff_exists, keyOf?, List.find?_isSome]
  exact ⟨key, List.mem_map.2 ⟨_, Table.mem_of_get? h, rfl⟩, by simpa using h⟩

/-! ## Type objects -/

/-- A position or a rank as it was written. -/
def ordinalJson : Ordinal → Json
  | .number n => .int n
  | .truth b => .bool b

/-- The namespace of an unresolved type, unless it has no key, as is the case for the root. -/
def spaceFields (registry : Registry) (space : SymId) : List (String × Json) :=
  match registry.keyOf? space with
  | none => []
  | some key => [("namespace", .str key)]

mutual

/-- The fields of a type as a type object.  Types outside the closed set have none. -/
def encode (registry : Registry) : Ty → List (String × Json)
  | .aggregate inst => encodeInst registry inst
  | .param index ofMethod name => [("param", ordinalJson index), ("method", .bool ofMethod),
      ("name", match name with | none => .null | some name => .str name)]
  | .array element rank vector => [("array", .obj (encode registry element)),
      ("rank", ordinalJson rank), ("vector", .bool vector)]
  | .pointer referent => [("pointer", .obj (encode registry referent))]
  | .nullable underlying => [("nullable", .obj (encode registry underlying))]
  | .byRef target out => [(if out then "out" else "ref", .obj (encode registry target))]
  | .error (some parent) _ (some name) (some args) => [("error", .str name),
      ("args", .arr (encodeAll registry args)), ("parent", .obj (encode registry parent))]
  | .error none (some space) (some name) (some args) =>
    ("error", .str name) :: ("args", .arr (encodeAll registry args)) :: spaceFields registry space
  | .error _ _ _ _ => [("error", .null)]
  | .null => [("special", .str "null")]
  | .void => [("special", .str "void")]
  | .boundLambda => [("special", .str "anonymous_method")]
  | .unboundLambda => [("special", .str "lambda")]
  | .methodGroup => [("special", .str "method_group")]
  | .argumentList => [("special", .str "arglist")]
  | .placeholder => [("special", .str "placeholder")]
  | .unknown _ => []

/-- The fields of an instantiation.  A declaration without a key has an empty name there. -/
def encodeInst (registry : Registry) : Inst → List (String × Json)
  | .mk decl args outer =>
    ("type", .str ((registry.keyOf? decl).getD "")) ::
      ("args", .arr (encodeAll registry args)) ::
      match outer with
      | none => []
      | some inst => [("outer", .obj (encodeInst registry inst))]

/-- Several types as type objects. -/
def encodeAll (registry : Registry) : List Ty → List Json
  | [] => []
  | t :: rest => .obj (encode registry t) :: encodeAll registry rest

end

/-- The types of a list are written one by one. -/
lemma encodeAll_eq_map (registry : Registry) (ts : List Ty) :
    encodeAll registry ts = ts.map fun t => .obj (encode registry t) := by
  induction ts with
  | nil => rfl
  | cons t rest ih => rw [encodeAll, ih, List.map_cons]

end Document

/-- The declarations that a type mentions have keys; as a namespace the root needs none. -/
structure Ty.Keyed (names : Document.Names) (t : Ty) : Prop where
  aggregate {inst : Inst} : .aggregate inst ∈ t.parts →
    ∃ key, names.registry.get? key = some inst.decl
  space {parent : Option Ty} {space : SymId} {name : Option String} {args : Option (List Ty)} :
    .error parent (some space) name args ∈ t.parts →
      space = names.graph.root ∨ ∃ key, names.registry.get? key = some space

/-- The declarations that a child of a type mentions have keys if those of the type have. -/
lemma Ty.Keyed.of_mem_children {names : Document.Names} {t u : Ty} (h : t.Keyed names)
    (hu : u ∈ t.children) : u.Keyed names :=
  ⟨fun hp => h.aggregate (mem_parts_of_child hu hp), fun hp => h.space (mem_parts_of_child hu hp)⟩

namespace Document

variable {names : Names} {scope : Scope}

/-- A position or a rank in range is read as it was written. -/
lemma ordinalFrom?_ordinalJson {least : Int} {ordinal : Ordinal} (h : least ≤ ordinal.value) :
    ordinalFrom? least (ordinalJson ordinal) = some ordinal := by
  cases ordinal <;> simpa [ordinalFrom?, ordinal?, ordinalJson] using h

/-- Types that are resolved one by one are resolved together. -/
lemma resolveAll_map {f : Ty → Json} {ts : List Ty}
    (h : ∀ t ∈ ts, resolve names scope (f t) = .ok t) :
    resolveAll names scope (ts.map f) = .ok ts := by
  induction ts with
  | nil => rfl
  | cons t rest ih =>
    rw [List.map_cons, resolveAll, h t List.mem_cons_self,
      ih fun u hu => h u (List.mem_cons_of_mem _ hu)]
    rfl

/-! ## The forms -/

section

variable {value : Json} {t : Ty} {ts : List Ty} {items : List Json}

/-- What is found under a key is the type that the value there is resolved to. -/
lemma resolveAt_of_get? {fields : List (String × Json)} {key : String}
    (hget : Table.get? fields key = some value) (h : resolve names scope value = .ok t) :
    resolveAt names scope key fields = some (.ok t) := by
  rw [resolveAt_eq, hget, Option.map_some, h]

/-- An object with the key of a form alone holds what is around the type under the key. -/
lemma resolve_around (h : resolve names scope value = .ok t) :
    resolve names scope (.obj [("pointer", value)]) = .ok (.pointer t) ∧
      resolve names scope (.obj [("nullable", value)]) = .ok (.nullable t) ∧
        ∀ out : Bool, resolve names scope (.obj [(if out then "out" else "ref", value)]) =
          .ok (.byRef t out) := by
  have hchild (key : String) : resolveAt names scope key [(key, value)] = some (.ok t) :=
    resolveAt_of_get? (if_pos rfl) h
  have hpointer : TypeForm.of? [("pointer", value)] = some .pointer := rfl
  have hnullable : TypeForm.of? [("nullable", value)] = some .nullable := rfl
  have href : TypeForm.of? [("ref", value)] = some .ref := rfl
  have hout : TypeForm.of? [("out", value)] = some .out := rfl
  refine ⟨?_, ?_, fun out => ?_⟩
  · simp only [resolve, assemble, hpointer, TypeForm.key, hchild]
    rfl
  · simp only [resolve, assemble, hnullable, TypeForm.key, hchild]
    rfl
  · cases out
    · simp only [resolve, assemble, href, TypeForm.key, hchild, Bool.false_eq_true, if_false]
      rfl
    · simp only [resolve, assemble, hout, TypeForm.key, hchild, if_true]
      rfl

/-- An instantiation over arguments, and one inside another instantiation.

**Proof sketch.** The reader finds the key, the list of arguments and, in the second case, the
enclosing instantiation under their keys. -/
lemma resolve_named {key : String} {id : SymId} (hkey : names.registry.lookup key = .ok id)
    (hid : names.graph.kind? id = some .aggregate) (hts : resolveAll names scope items = .ok ts) :
    resolve names scope (.obj [("type", .str key), ("args", .arr items)]) =
        .ok (.aggregate (names.graph.instantiate id ts none)) ∧
      ∀ value outer, resolve names scope value = .ok (.aggregate outer) →
        resolve names scope (.obj [("type", .str key), ("args", .arr items), ("outer", value)]) =
          .ok (.aggregate (.mk id ts (some outer))) := by
  have hid : names.graph.isAggregate id = true := Graph.isAggregate_eq_true.2 hid
  have hform (rest : List (String × Json)) :
      TypeForm.of? (("type", .str key) :: rest) = some .named := rfl
  have hargs (rest : List (String × Json)) :
      resolveArgs names scope (("type", .str key) :: ("args", .arr items) :: rest) = .ok ts :=
    (resolveArgs_eq rfl).trans hts
  have hpath (rest : List (String × Json)) :
      Json.stringField (("type", .str key) :: rest) "type" = .ok key := rfl
  refine ⟨?_, fun value outer houter => ?_⟩
  · simp only [resolve, assemble, hform, hargs, hpath, bind_eq_ok]
    refine ⟨key, rfl, id, hkey, ?_⟩
    rw [hid]
    rfl
  · simp only [resolve, assemble, hform, hargs, hpath, bind_eq_ok]
    refine ⟨key, rfl, id, hkey, ?_⟩
    have hchild : resolveAt names scope "outer"
        [("type", .str key), ("args", .arr items), ("outer", value)] =
      some (.ok (.aggregate outer)) := resolveAt_of_get? rfl houter
    simp only [hid, hchild]
    rfl

/-- An array whose rank and flag are written. -/
lemma resolve_array (h : resolve names scope value = .ok t) {rank : Ordinal}
    (hrank : 1 ≤ rank.value) (vector : Bool) :
    resolve names scope
        (.obj [("array", value), ("rank", ordinalJson rank), ("vector", .bool vector)]) =
      .ok (.array t rank vector) := by
  have hform :
      TypeForm.of? [("array", value), ("rank", ordinalJson rank), ("vector", .bool vector)] =
        some .array := rfl
  have hread : ordinalFrom? 1 (Json.fieldD
      [("array", value), ("rank", ordinalJson rank), ("vector", .bool vector)] "rank" (.int 1)) =
    some rank := ordinalFrom?_ordinalJson hrank
  have hchild : resolveAt names scope "array"
      [("array", value), ("rank", ordinalJson rank), ("vector", .bool vector)] = some (.ok t) :=
    resolveAt_of_get? rfl h
  simp only [resolve, assemble, hform, hread, TypeForm.key, hchild]
  rfl

/-- A type parameter whose position and flag are written, and its name if it has one. -/
lemma resolve_param {index : Ordinal} (hindex : 0 ≤ index.value) (ofMethod : Bool)
    (name : Option String) :
    resolve names scope (.obj [("param", ordinalJson index), ("method", .bool ofMethod),
        ("name", match name with | none => .null | some name => .str name)]) =
      .ok (.param index ofMethod name) := by
  have hread (rest : List (String × Json)) : ordinalFrom? 0 (Json.fieldD
      (("param", ordinalJson index) :: rest) "param" .null) = some index :=
    ordinalFrom?_ordinalJson hindex
  have hform (name : Json) : TypeForm.of? [("param", ordinalJson index), ("method", .bool ofMethod),
    ("name", name)] = some .param := rfl
  cases name
  all_goals
    simp only [resolve, assemble, hform, hread]
    rfl

/-- An unresolved type inside another type. -/
lemma resolve_errorInType (h : resolve names scope value = .ok t) (name : String)
    (hts : resolveAll names scope items = .ok ts) :
    resolve names scope (.obj [("error", .str name), ("args", .arr items), ("parent", value)]) =
      .ok (.error (some t) none (some name) (some ts)) := by
  have hform : TypeForm.of? [("error", .str name), ("args", .arr items), ("parent", value)] =
    some .error := rfl
  have hargs : resolveArgs names scope
      [("error", .str name), ("args", .arr items), ("parent", value)] = .ok ts :=
    (resolveArgs_eq rfl).trans hts
  have hchild : resolveAt names scope "parent"
      [("error", .str name), ("args", .arr items), ("parent", value)] = some (.ok t) :=
    resolveAt_of_get? rfl h
  simp only [resolve, assemble, hform, hargs, hchild]
  rfl

/-- An unresolved type inside a namespace, which is the root or has a key.

**Proof sketch.** A namespace with a key is written with it and found again under it.  One without
a key is the root, which is left out and is the default. -/
lemma resolve_errorInSpace {space : SymId} (hkind : names.graph.kind? space = some .space)
    (hkey : space = names.graph.root ∨ ∃ key, names.registry.get? key = some space) (name : String)
    (hts : resolveAll names scope items = .ok ts) :
    resolve names scope (.obj (("error", .str name) :: ("args", .arr items) ::
        spaceFields names.registry space)) =
      .ok (.error none (some space) (some name) (some ts)) := by
  have hargs (rest : List (String × Json)) : resolveArgs names scope
      (("error", .str name) :: ("args", .arr items) :: rest) = .ok ts :=
    (resolveArgs_eq rfl).trans hts
  unfold spaceFields
  cases hspace : names.registry.keyOf? space with
  | none =>
    have hroot : space = names.graph.root := hkey.resolve_right fun ⟨_, h⟩ => by
      obtain ⟨_, h⟩ := Registry.exists_keyOf? h
      rw [hspace] at h
      cases h
    have hform : TypeForm.of? [("error", .str name), ("args", .arr items)] = some .error := rfl
    simp only [resolve, assemble, hform, hargs, hroot]
    rfl
  | some key =>
    have hform : TypeForm.of? [("error", .str name), ("args", .arr items),
      ("namespace", .str key)] = some .error := rfl
    have herrorSpace : errorNamespace names [("error", .str name), ("args", .arr items),
        ("namespace", .str key)] = .ok space := by
      have hpath : Json.stringField [("error", .str name), ("args", .arr items),
        ("namespace", .str key)] "namespace" = .ok key := rfl
      have hcontains : Table.contains [("error", Json.str name), ("args", .arr items),
        ("namespace", .str key)] "namespace" = true := rfl
      rw [errorNamespace, if_pos hcontains, hpath, bind_eq_ok]
      refine ⟨key, rfl, bind_eq_ok.2 ⟨space, Registry.lookup_of_keyOf? hspace, ?_⟩⟩
      exact if_pos hkind
    simp only [resolve, assemble, hform, hargs, herrorSpace]
    rfl

end

/-! ## Reading what is written -/

/-- **A type object is resolved to the type that it was written for**, whatever is in scope.

**Proof sketch.** Induction on the type.  The types inside it are resolved to what they were written
for, and every form puts them back around one another. -/
theorem resolve_encode {t : Ty} (ht : t.WellFormed names.graph) (hkeys : t.Keyed names)
    (scope : Scope) : resolve names scope (.obj (encode names.registry t)) = .ok t := by
  induction t using Ty.induction_children with
  | h t ih =>
    have hchild (u : Ty) (hu : u ∈ t.children) :
        resolve names scope (.obj (encode names.registry u)) = .ok u :=
      ih u hu (ht.of_mem_children hu) (hkeys.of_mem_children hu)
    have hall (ts : List Ty) (hts : ∀ u ∈ ts, u ∈ t.children) :
        resolveAll names scope (encodeAll names.registry ts) = .ok ts := by
      rw [encodeAll_eq_map]
      exact resolveAll_map fun u hu => hchild u (hts u hu)
    cases ht with
    | @aggregate inst hinst =>
      obtain ⟨decl, args, outer⟩ := inst
      obtain ⟨_, hget⟩ := hkeys.aggregate (Ty.self_mem_parts _)
      obtain ⟨key, hkey⟩ : ∃ key, names.registry.keyOf? decl = some key :=
        Registry.exists_keyOf? hget
      have hlookup := Registry.lookup_of_keyOf? hkey
      have hargs := hall args fun u hu => Ty.mem_children_aggregate.2 (.inr hu)
      cases hinst with
      | outermost hdecl hnone _ =>
        have hinst : names.graph.instantiate decl args none = .mk decl args none := by
          rw [Graph.instantiate, hnone]
          rfl
        rw [encode, encodeInst, hkey, Option.getD_some, ← hinst]
        exact (resolve_named hlookup hdecl hargs).1
      | inside hdecl _ _ =>
        have houter := hchild _ (Ty.mem_children_aggregate.2 (.inl ⟨_, rfl, rfl⟩))
        rw [encode, encodeInst, hkey, Option.getD_some]
        exact (resolve_named hlookup hdecl hargs).2 _ _ houter
    | param hindex => exact resolve_param hindex _ _
    | array _ hrank => exact resolve_array (hchild _ (List.mem_singleton_self _)) hrank _
    | pointer => exact (resolve_around (hchild _ (List.mem_singleton_self _))).1
    | nullable => exact (resolve_around (hchild _ (List.mem_singleton_self _))).2.1
    | byRef => exact (resolve_around (hchild _ (List.mem_singleton_self _))).2.2 _
    | errorInType =>
      exact resolve_errorInType (hchild _ List.mem_cons_self) _
        (hall _ fun u hu => List.mem_cons_of_mem _ hu)
    | errorInSpace hspace =>
      exact resolve_errorInSpace hspace (hkeys.space (Ty.self_mem_parts _)) _
        (hall _ fun u hu => hu)
    -- the remaining types have nothing inside them
    | _ => rfl

/-- **No key is written twice.**

**Proof sketch.** Induction over the types directly inside.  Each form is written with a fixed list
of different keys, around values that have none twice. -/
theorem distinctKeys_encode (registry : Registry) {g : Graph} {t : Ty} (ht : t.WellFormed g) :
    (Json.obj (encode registry t)).DistinctKeys := by
  induction t using Ty.induction_children with
  | h t ih =>
    have hchild (u : Ty) (hu : u ∈ t.children) : (Json.obj (encode registry u)).DistinctKeys :=
      ih u hu (ht.of_mem_children hu)
    have hall (ts : List Ty) (hts : ∀ u ∈ ts, u ∈ t.children) :
        (Json.arr (encodeAll registry ts)).DistinctKeys := by
      rw [encodeAll_eq_map]
      exact .arr (List.forall_mem_map.2 fun u hu => hchild u (hts u hu))
    have hordinal (ordinal : Ordinal) : (ordinalJson ordinal).DistinctKeys := by
      cases ordinal
      · exact .int
      · exact .bool
    cases ht with
    | @aggregate inst hinst =>
      obtain ⟨decl, args, outer⟩ := inst
      have hargs := hall args fun u hu => Ty.mem_children_aggregate.2 (.inr hu)
      cases hinst with
      | outermost => simp [encode, encodeInst, hargs]
      | inside =>
        have houter := hchild _ (Ty.mem_children_aggregate.2 (.inl ⟨_, rfl, rfl⟩))
        rw [encode] at houter
        simp [encode, encodeInst, hargs, houter]
    | @errorInType _ _ args =>
      have hargs := hall args fun u hu => List.mem_cons_of_mem _ hu
      have hparent := hchild _ List.mem_cons_self
      simp [encode, hargs, hparent]
    | @errorInSpace space _ args =>
      have hargs := hall args fun u hu => hu
      cases hspace : registry.keyOf? space <;> simp [encode, spaceFields, hspace, hargs]
    | @param _ _ name => cases name <;> simp [encode, hordinal]
    | array | pointer | nullable | byRef =>
      have hinner := hchild _ (List.mem_singleton_self _)
      simp [encode, hinner, hordinal]
    | _ => simp [encode]

/-- A request for a type object alone is one for its type. -/
lemma readRequests_type {fields : List (String × Json)} {t : Ty}
    (h : resolve names [] (.obj fields) = .ok t) :
    readRequests names 0 [.obj [("type", .obj fields)]] = .ok [⟨.str "type", .type t none⟩] := by
  have hcontext : readContext names [("type", .obj fields)] = .ok none := rfl
  have hrequest : readRequest names [("type", .obj fields)] = .ok ⟨.str "type", .type t none⟩ := by
    rw [readRequest, hcontext]
    exact bind_eq_ok.2 ⟨none, rfl, bind_eq_ok.2 ⟨t, h, rfl⟩⟩
  rw [readRequests, hrequest]
  rfl

/-- **Every type over a document can be written in it.**  Take a well-formed type over an accepted
document whose aggregates and namespaces, other than the root, have keys there.  Some value is
resolved to just this type, whatever type parameters are in scope; and the document that requests
the value instead of what it requests is accepted and asks for the type.

**Proof sketch.** The value is the type as a type object.  The requests of a document have no part
in what is declared, so the type is resolved over the same declarations and keys. -/
theorem exists_written {json : Json} {doc : Document} (hdoc : ofJson json = .ok doc) {t : Ty}
    (ht : t.WellFormed doc.graph) (hkeys : t.Keyed ⟨doc.graph, doc.registry⟩) :
    ∃ value : Json, value.DistinctKeys ∧
      (∀ scope, resolve ⟨doc.graph, doc.registry⟩ scope value = .ok t) ∧
      ∃ fields, json = .obj fields ∧
        ofJson (.obj (Table.insert fields "render" (.arr [.obj [("type", value)]]))) =
          .ok { doc with requests := [⟨.str "type", .type t none⟩] } := by
  have hresolve (scope : Scope) : resolve ⟨doc.graph, doc.registry⟩ scope
      (.obj (encode doc.registry t)) = .ok t := resolve_encode ht hkeys scope
  obtain ⟨fields, rfl, declarations, signed, items, h⟩ := stages_of_ofJson hdoc
  refine ⟨.obj (encode doc.registry t), distinctKeys_encode _ ht, hresolve, fields, rfl,
    ofJson_obj_eq_ok.2 ⟨declarations, signed, [.obj [("type", .obj (encode doc.registry t))]], ?_⟩⟩
  exact {
    declarations_eq := (listField_insert_of_ne (by decide) ..).trans h.declarations_eq
    stop := h.stop
    registry_eq := h.registry_eq
    signed_eq := h.signed_eq
    graph_eq := h.graph_eq
    items_eq := listField_insert ..
    requests_eq := readRequests_type (hresolve [])
  }

/-- An array of one dimension that is no vector, of an unresolved type inside a nested class inside
an instantiation of the generic class around it, over unresolved types of the root, with an empty
name, and of a namespace. -/
theorem exists_written_array :
    let json : Json := .obj [("declarations", .arr [.obj [("kind", .str "namespace"),
      ("name", .str "N"), ("members", .arr [.obj [("kind", .str "class"), ("name", .str "A"),
        ("type_params", .arr [.str "T"]), ("members", .arr [.obj [("kind", .str "class"),
          ("name", .str "B")]])]])]])]
    let n := SymId.root.child (.member "N" 0)
    let a := (SymId.root.child (.member "N" 0)).child (.member "A" 0)
    let b := ((SymId.root.child (.member "N" 0)).child (.member "A" 0)).child (.member "B" 0)
    let t : Ty := .array (.error (some (.aggregate (.mk b [] (some (.mk a [.void] none))))) none
      (some "Missing") (some [.error none (some .root) (some "") (some []),
        .error none (some n) (some "U") (some [])])) (.number 1) false
    ∃ doc, ofJson json = .ok doc ∧ t.WellFormed doc.graph ∧
      t.Keyed ⟨doc.graph, doc.registry⟩ ∧
      ∃ value : Json, value.DistinctKeys ∧
        resolve ⟨doc.graph, doc.registry⟩ [] value = .ok t ∧
        ∃ fields doc', json = .obj fields ∧
          ofJson (.obj (Table.insert fields "render" (.arr [.obj [("type", value)]]))) = .ok doc' ∧
          doc'.requests = [⟨.str "type", .type t none⟩] := by
  intro json n a b t
  obtain ⟨doc, hdoc, ha, hb, houter, hn, hroot, hgraph, hkeyA, hkeyB, hkeyN⟩ : ∃ doc,
      ofJson json = .ok doc ∧ doc.graph.kind? a = some .aggregate ∧
      doc.graph.kind? b = some .aggregate ∧ doc.graph.outerAggregate? a = none ∧
      doc.graph.kind? n = some .space ∧ doc.graph.kind? .root = some .space ∧
      doc.graph.root = .root ∧ doc.registry.get? "N.A" = some a ∧
      doc.registry.get? "N.A.B" = some b ∧ doc.registry.get? "N" = some n := by
    refine ⟨?doc, ?hdoc, ?ha, ?hb, ?houter, ?hn, ?hroot, ?hgraph, ?hkeyA, ?hkeyB, ?hkeyN⟩
    case hdoc => cbv; rfl
    all_goals decide +kernel
  have ht : t.WellFormed doc.graph := by
    refine .array (.errorInType (.aggregate (.inside hb ?_ (.outermost ha houter ?_))) ?_) ?_
    · simp
    · simpa using .void
    · simpa using ⟨.errorInSpace hroot (by simp), .errorInSpace hn (by simp)⟩
    · simp [Ordinal.value]
  have hkeys : t.Keyed ⟨doc.graph, doc.registry⟩ := by
    refine ⟨fun {inst} hinst => ?_, fun {parent space name args} herror => ?_⟩
    · have hlevels : inst = .mk b [] (some (.mk a [.void] none)) ∨ inst = .mk a [.void] none := by
        simpa [t, Ty.parts, Inst.parts, Ty.partsAll] using hinst
      rcases hlevels with rfl | rfl
      · exact ⟨_, hkeyB⟩
      · exact ⟨_, hkeyA⟩
    · have herrors : (parent = none ∧ space = .root ∧ name = some "" ∧ args = some []) ∨
          parent = none ∧ space = n ∧ name = some "U" ∧ args = some [] := by
        simpa [t, Ty.parts, Inst.parts, Ty.partsAll] using herror
      rcases herrors with ⟨_, rfl, _⟩ | ⟨_, rfl, _⟩
      · exact .inl hgraph.symm
      · exact .inr ⟨_, hkeyN⟩
  obtain ⟨value, hvalue, hresolve, fields, hfields, hload⟩ := exists_written hdoc ht hkeys
  exact ⟨doc, hdoc, ht, hkeys, value, hvalue, hresolve [], fields, _, hfields, hload, rfl⟩

end Document

end DisplayNames
