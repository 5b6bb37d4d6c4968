import DisplayNames.Document.Request
import DisplayNames.Document.Signature
import DisplayNames.Proofs.Declarations
import DisplayNames.Proofs.NestedGraph

/-!
# Resolved types

Whatever a document writes as a type, what it resolves to is well-formed: instantiations are of
declared aggregates, unresolved types have a name and arguments or nothing, positions and ranks are
in range.  So are the types in slots and the types of contexts.

## Main definitions

* `DisplayNames.Document.Names.Sound` — keys are those of symbols of a nested graph.
* `DisplayNames.Document.Assembles` — what type objects are put together to, form by form.
* `DisplayNames.ExplicitImpl.WellFormed` — well-formed explicit implementations.

## Main results

* `DisplayNames.Document.assembles_of_assemble` — every type object has one of the forms.
* `DisplayNames.Document.resolve_induction` — induction on what is written as a type.
* `DisplayNames.Document.resolve_wellFormed` — types in documents resolve to well-formed types.
* `DisplayNames.Document.resolveImpl_wellFormed` — the same for explicit implementations.
* `DisplayNames.Document.readContext_wellFormed` — the same for the contexts of requests.
-/

set_option relaxedAutoImplicit false
set_option autoImplicit false

namespace DisplayNames

/-- An explicit implementation that a document over the graph can contain. -/
structure ExplicitImpl.WellFormed (g : Graph) (impl : ExplicitImpl) : Prop where
  /-- The member of a slot is a symbol of the graph, seen on a well-formed instantiation. -/
  target {member : SymId} {on : Option Inst} : impl.target? = some (member, on) →
    (∃ s, g.find? member = some s) ∧ ∀ inst ∈ on, inst.WellFormed g
  unresolved : ∀ t ∈ impl.unresolved, t.WellFormed g

/-- What implements nothing explicitly is well-formed. -/
lemma ExplicitImpl.WellFormed.absent (g : Graph) : ExplicitImpl.absent.WellFormed g where
  target h := by simp [ExplicitImpl.absent, ExplicitImpl.target?] at h
  unresolved := by simp [ExplicitImpl.absent]

namespace Document

/-- The graph is nested, and every key is that of one of its symbols. -/
structure Names.Sound (names : Names) : Prop where
  nested : names.graph.Nested
  known {key : String} {id : SymId} : names.registry.get? key = some id →
    ∃ s, names.graph.find? id = some s

section

variable {names : Names} (h : names.Sound)
include h

/-- A key that is found is that of a symbol. -/
lemma Names.Sound.lookup {key : String} {id : SymId}
    (hid : names.registry.lookup key = .ok id) : ∃ s, names.graph.find? id = some s := by
  unfold Registry.lookup at hid
  split at hid
  · simp at hid
  · rename_i id' hget
    rw [Except.ok.injEq] at hid
    exact h.known (hid ▸ hget)

/-! ## Types -/

omit h in
/-- A position or rank that is read is at least as large as required. -/
lemma le_of_ordinalFrom? {least : Int} {value : Json} {ordinal : Ordinal}
    (ho : ordinalFrom? least value = some ordinal) : least ≤ ordinal.value := by
  simpa using (Option.filter_eq_some_iff.1 ho).2

omit h in
/-- The types without structure are well-formed. -/
lemma specialType?_wellFormed {name : String} {t : Ty} (ht : specialType? name = some t) :
    t.WellFormed names.graph := by
  unfold specialType? at ht
  split at ht <;> simp only [Option.some.injEq, reduceCtorEq] at ht <;> subst ht <;> constructor

omit h in
/-- A type that is used as an instantiation is one. -/
lemma asInst_eq_ok {error : DocumentError} {t : Ty} {inst : Inst}
    (hi : asInst error t = .ok inst) : t = .aggregate inst := by
  unfold asInst at hi
  split at hi <;> simp_all

omit h in
/-- A well-formed type that is used as an instantiation is a well-formed one. -/
lemma asInst_wellFormed {error : DocumentError} {t : Ty} {inst : Inst}
    (hi : asInst error t = .ok inst) (ht : t.WellFormed names.graph) :
    inst.WellFormed names.graph := by
  cases asInst_eq_ok hi
  cases ht with
  | aggregate hinst => exact hinst

/-- The namespace of an unresolved type is a namespace. -/
lemma errorNamespace_kind {fields : List (String × Json)} {id : SymId}
    (hid : errorNamespace names fields = .ok id) : names.graph.kind? id = some .space := by
  unfold errorNamespace at hid
  split at hid
  · simp only [bind_eq_ok] at hid
    obtain ⟨path, _, id', _, hid⟩ := hid
    split at hid
    · rename_i hkind
      rw [pure_eq_ok] at hid
      exact hid ▸ hkind
    · exact absurd hid throw_ne_ok
  · rw [pure_eq_ok] at hid
    rw [← hid, h.nested.root_eq, Graph.kind?, h.nested.root_symbol]
    rfl

omit h in
/-- The type under the key of a form, if there is one. -/
lemma child_of_required {fields : List (String × Json)} {t : Ty}
    {r : Option (Except DocumentError Ty)}
    (ht : r.getD (.error (.unrecognizedType fields)) = .ok t) : r = some (.ok t) := by
  cases r with
  | none => simp at ht
  | some r => simpa using ht

/-- What a type object of each form is put together to from the types under its keys and from its
list of arguments. -/
inductive Assembles (names : Names) (fields : List (String × Json))
    (child : String → Option (Except DocumentError Ty)) (args : Except DocumentError (List Ty)) :
    TypeForm → Ty → Prop
  | outermost {id : SymId} {ts : List Ty} :
    names.graph.kind? id = some .aggregate → args = .ok ts → child "outer" = none →
      Assembles names fields child args .named (.aggregate (names.graph.instantiate id ts none))
  | inside {id : SymId} {ts : List Ty} {outer : Inst} :
    names.graph.kind? id = some .aggregate → args = .ok ts →
      child "outer" = some (.ok (.aggregate outer)) →
        Assembles names fields child args .named
          (.aggregate (names.graph.instantiate id ts (some outer)))
  | array {element : Ty} {rank : Ordinal} {vector : Bool} :
    1 ≤ rank.value → child TypeForm.array.key = some (.ok element) →
      Assembles names fields child args .array (.array element rank vector)
  | pointer {referent : Ty} : child TypeForm.pointer.key = some (.ok referent) →
    Assembles names fields child args .pointer (.pointer referent)
  | nullable {underlying : Ty} : child TypeForm.nullable.key = some (.ok underlying) →
    Assembles names fields child args .nullable (.nullable underlying)
  | ref {target : Ty} : child TypeForm.ref.key = some (.ok target) →
    Assembles names fields child args .ref (.byRef target false)
  | out {target : Ty} : child TypeForm.out.key = some (.ok target) →
    Assembles names fields child args .out (.byRef target true)
  | param {index : Ordinal} {ofMethod : Bool} {name : Option String} : 0 ≤ index.value →
    Assembles names fields child args .param (.param index ofMethod name)
  /-- An unresolved type about which nothing is known; nothing is looked for in it. -/
  | unresolved : Json.fieldD fields "error" .null = .null →
    Assembles names fields child args .error (.error none none none none)
  | errorInType {parent : Ty} {name : String} {ts : List Ty} :
    Json.fieldD fields "error" .null ≠ .null → args = .ok ts → child "parent" = some (.ok parent) →
      Assembles names fields child args .error (.error (some parent) none (some name) (some ts))
  | errorInSpace {space : SymId} {name : String} {ts : List Ty} :
    Json.fieldD fields "error" .null ≠ .null → args = .ok ts → child "parent" = none →
      errorNamespace names fields = .ok space →
        Assembles names fields child args .error (.error none (some space) (some name) (some ts))
  | special {name : String} {t : Ty} : specialType? name = some t →
    Assembles names fields child args .special t

omit h in
/-- **What a type object is put together to.**  Everything that is proved of type objects is read
off the forms.

**Proof sketch.** A case for each form.  Whatever is asked for on the way is there, as otherwise an
error would have been the result. -/
theorem assembles_of_assemble {fields : List (String × Json)}
    {child : String → Option (Except DocumentError Ty)} {args : Except DocumentError (List Ty)}
    {t : Ty} (ht : assemble names fields child args = .ok t) :
    ∃ form, TypeForm.of? fields = some form ∧ Assembles names fields child args form t := by
  unfold assemble at ht
  dsimp only at ht
  split at ht
  case h_1 => simp at ht
  case h_2 hform => -- named
    refine ⟨.named, hform, ?_⟩
    simp only [bind_eq_ok] at ht
    obtain ⟨path, _, id, _, ht⟩ := ht
    split at ht
    · simp only [bind_eq_ok, throw_ne_ok, false_and, exists_false] at ht
    · rename_i hkind
      rw [Bool.not_eq_true, Bool.not_eq_false', Graph.isAggregate_eq_true] at hkind
      simp only [bind_eq_ok] at ht
      obtain ⟨ts, hts, ht⟩ := ht
      cases houter : child "outer" with
      | none =>
        simp only [houter, bind_eq_ok, pure_eq_ok, exists_eq_left'] at ht
        exact ht ▸ .outermost hkind hts houter
      | some r =>
        simp only [houter, bind_eq_ok, pure_eq_ok] at ht
        obtain ⟨outer, rfl, inst, hinst, _, rfl, rfl⟩ := ht
        exact .inside hkind hts (asInst_eq_ok hinst ▸ houter)
  case h_3 hform => -- array
    refine ⟨.array, hform, ?_⟩
    split at ht
    · rename_i ordinal hordinal
      simp only [bind_eq_ok, pure_eq_ok] at ht
      obtain ⟨element, helement, rfl⟩ := ht
      exact .array (le_of_ordinalFrom? hordinal) (child_of_required helement)
    · exact absurd ht throw_ne_ok
  case h_4 hform | h_5 hform | h_6 hform | h_7 hform => -- around another type
    refine ⟨_, hform, ?_⟩
    simp only [bind_eq_ok, pure_eq_ok] at ht
    obtain ⟨inner, hinner, rfl⟩ := ht
    constructor
    exact child_of_required hinner
  case h_8 hform => -- parameter
    refine ⟨.param, hform, ?_⟩
    split at ht
    · rename_i ordinal hordinal
      split at ht
      · simp only [bind_eq_ok, pure_eq_ok, exists_eq_left'] at ht
        exact ht ▸ .param (le_of_ordinalFrom? hordinal)
      · simp only [bind_eq_ok, pure_eq_ok] at ht
        obtain ⟨_, _, _, rfl, rfl⟩ := ht
        exact .param (le_of_ordinalFrom? hordinal)
    · exact absurd ht throw_ne_ok
  case h_9 hform => -- unresolved
    refine ⟨.error, hform, ?_⟩
    split at ht
    · rename_i hnull
      rw [Except.ok.injEq] at ht
      exact ht ▸ .unresolved hnull
    · rename_i hnamed
      simp only [bind_eq_ok] at ht
      obtain ⟨name, _, ts, hts, ht⟩ := ht
      cases hparent : child "parent" with
      | some r =>
        simp only [hparent, bind_eq_ok, pure_eq_ok] at ht
        obtain ⟨parent, rfl, rfl⟩ := ht
        exact .errorInType hnamed hts hparent
      | none =>
        simp only [hparent, bind_eq_ok, pure_eq_ok] at ht
        obtain ⟨space, hspace, rfl⟩ := ht
        exact .errorInSpace hnamed hts hparent hspace
  case h_10 hform => -- special
    refine ⟨.special, hform, ?_⟩
    simp only [bind_eq_ok] at ht
    obtain ⟨name, _, ht⟩ := ht
    split at ht
    · rename_i special hspecial
      rw [pure_eq_ok] at ht
      exact ht ▸ .special hspecial
    · exact absurd ht throw_ne_ok

/-- A type object whose parts are well-formed is well-formed. -/
lemma assemble_wellFormed {fields : List (String × Json)}
    {child : String → Option (Except DocumentError Ty)} {args : Except DocumentError (List Ty)}
    (hchild : ∀ key t, child key = some (.ok t) → t.WellFormed names.graph)
    (hargs : ∀ ts, args = .ok ts → ∀ t ∈ ts, t.WellFormed names.graph) {t : Ty}
    (ht : assemble names fields child args = .ok t) : t.WellFormed names.graph := by
  obtain ⟨form, _, hassembles⟩ := assembles_of_assemble ht
  cases hassembles with
  | outermost hkind hts _ =>
    exact .aggregate (h.nested.instantiate_wellFormed hkind (hargs _ hts) (by simp))
  | inside hkind hts houter =>
    cases hchild _ _ houter with
    | aggregate hinst =>
      exact .aggregate (h.nested.instantiate_wellFormed hkind (hargs _ hts) (by simpa using hinst))
  | array hrank helement => exact .array (hchild _ _ helement) hrank
  | pointer hreferent => exact .pointer (hchild _ _ hreferent)
  | nullable hunderlying => exact .nullable (hchild _ _ hunderlying)
  | ref htarget | out htarget => exact .byRef (hchild _ _ htarget)
  | param hindex => exact .param hindex
  | unresolved => exact .unresolved
  | errorInType _ hts hparent => exact .errorInType (hchild _ _ hparent) (hargs _ hts)
  | errorInSpace _ hts _ hspace =>
    exact .errorInSpace (errorNamespace_kind h hspace) (hargs _ hts)
  | special hspecial => exact specialType?_wellFormed hspecial

omit h in
/-- A type that is written as a name is a parameter in scope or an aggregate without arguments. -/
lemma resolveName_eq_ok_or {scope : Scope} {name : String} {t : Ty}
    (ht : resolveName names scope name = .ok t) :
    (∃ e ∈ scope, t = e.2) ∨
      ∃ id, names.graph.kind? id = some .aggregate ∧
        t = .aggregate (names.graph.instantiate id [] none) := by
  unfold resolveName at ht
  split at ht
  · rename_i found hfound
    rw [Except.ok.injEq] at ht
    exact .inl ⟨_, Table.mem_of_get? hfound, ht.symm⟩
  · split at ht
    · rename_i id hid
      rw [Except.ok.injEq] at ht
      obtain ⟨_, hkind⟩ := Option.filter_eq_some_iff.1 hid
      exact .inr ⟨id, Graph.isAggregate_eq_true.1 hkind, ht.symm⟩
    · simp at ht

/-- A type that is written as a name is well-formed, if the parameters in scope are. -/
lemma resolveName_wellFormed {scope : Scope}
    (hscope : ∀ e ∈ scope, e.2.WellFormed names.graph) {name : String} {t : Ty}
    (ht : resolveName names scope name = .ok t) : t.WellFormed names.graph := by
  rcases resolveName_eq_ok_or ht with ⟨e, he, rfl⟩ | ⟨id, hkind, rfl⟩
  · exact hscope e he
  · exact .aggregate (h.nested.instantiate_wellFormed hkind (by simp) (by simp))

omit h in
/-- **Induction on what is written as a type.**  Let something hold of the types that written names
resolve to, and of what a type object is put together to if it holds of the types inside.  Then it
holds of every type that is resolved, of the arguments of an object, of lists of types and of the
types under the keys of an object.  It may depend on something that is written and comes down to
what is inside.

**Proof sketch.** The recursion of the reader: the key of a part or of the arguments is found behind
the fields that have other keys. -/
theorem resolve_induction {scope : Scope} {P : Ty → Prop} {W : Json → Prop}
    (hname : ∀ name t, resolveName names scope name = .ok t → P t)
    (hobject : ∀ fields child args t, W (.obj fields) →
      (∀ key, (∀ value, Table.get? fields key = some value → W value) →
        ∀ u, child key = some (.ok u) → P u) →
      ((∀ items, Table.get? fields "args" = some (.arr items) → ∀ item ∈ items, W item) →
        ∀ ts, args = .ok ts → ∀ u ∈ ts, P u) →
      assemble names fields child args = .ok t → P t) :
    (∀ json, W json → ∀ t, resolve names scope json = .ok t → P t) ∧
    (∀ fields, (∀ items, Table.get? fields "args" = some (.arr items) → ∀ item ∈ items, W item) →
      ∀ ts, resolveArgs names scope fields = .ok ts → ∀ t ∈ ts, P t) ∧
    (∀ items, (∀ item ∈ items, W item) →
      ∀ ts, resolveAll names scope items = .ok ts → ∀ t ∈ ts, P t) ∧
    ∀ key fields, (∀ value, Table.get? fields key = some value → W value) →
      ∀ t, resolveAt names scope key fields = some (.ok t) → P t := by
  apply resolve.mutual_induct
  case case1 =>
    intro name _ t ht
    rw [resolve] at ht
    exact hname name t ht
  case case2 =>
    intro fields hat hargs hwritten t ht
    rw [resolve] at ht
    exact hobject fields _ _ t hwritten hat hargs ht
  case case3 =>
    intro value hstr hobj _ t ht
    cases value <;> simp [resolve] at ht hstr hobj
  case case4 =>
    intro _ ts hts
    rw [resolveAll, Except.ok.injEq] at hts
    simp [← hts]
  case case5 =>
    intro value rest ih ihrest hwritten ts hts
    simp only [resolveAll, bind_eq_ok, pure_eq_ok] at hts
    obtain ⟨t, ht, ts', hts', rfl⟩ := hts
    rw [List.forall_mem_cons] at hwritten ⊢
    exact ⟨ih hwritten.1 t ht, ihrest hwritten.2 ts' hts'⟩
  case case6 =>
    intro _ ts hts
    rw [resolveArgs, Except.ok.injEq] at hts
    simp [← hts]
  case case7 =>
    intro rest items ih hwritten ts hts
    unfold resolveArgs at hts
    rw [if_pos rfl] at hts
    exact ih (hwritten items (by simp [Table.get?_cons])) ts hts
  case case8 =>
    intro value rest hvalue _ ts hts
    cases value <;> simp [resolveArgs] at hts hvalue
  case case9 =>
    intro key value rest hkey ih hwritten ts hts
    unfold resolveArgs at hts
    rw [if_neg hkey] at hts
    simp only [Table.get?_cons, if_neg hkey] at hwritten
    exact ih hwritten ts hts
  case case10 =>
    intro key _ t ht
    simp [resolveAt] at ht
  case case11 =>
    intro key value rest ih hwritten t ht
    unfold resolveAt at ht
    rw [if_pos rfl, Option.some.injEq] at ht
    exact ih (hwritten value (by simp [Table.get?_cons])) t ht
  case case12 =>
    intro key key' value rest hkey ih hwritten t ht
    unfold resolveAt at ht
    rw [if_neg hkey] at ht
    simp only [Table.get?_cons, if_neg hkey] at hwritten
    exact ih hwritten t ht

/-- Types in documents resolve to well-formed types, and so do lists of types. -/
lemma resolve_parts {scope : Scope} (hscope : ∀ e ∈ scope, e.2.WellFormed names.graph) :
    (∀ json t, resolve names scope json = .ok t → t.WellFormed names.graph) ∧
      ∀ items ts, resolveAll names scope items = .ok ts → ∀ t ∈ ts, t.WellFormed names.graph := by
  obtain ⟨htype, _, hlist, _⟩ := resolve_induction (W := fun _ => True)
    (fun name t => resolveName_wellFormed h hscope)
    fun fields child args t _ hchild hargs => assemble_wellFormed h
      (fun key => hchild key fun _ _ => trivial) (hargs fun _ _ _ _ => trivial)
  exact ⟨fun json => htype json trivial, fun items => hlist items fun _ _ => trivial⟩

/-- **Types in documents resolve to well-formed types.** -/
theorem resolve_wellFormed {scope : Scope} (hscope : ∀ e ∈ scope, e.2.WellFormed names.graph)
    {json : Json} {t : Ty} (ht : resolve names scope json = .ok t) : t.WellFormed names.graph :=
  (resolve_parts h hscope).1 json t ht

/-- The types of a list under a key are well-formed. -/
lemma resolveList_wellFormed {scope : Scope} (hscope : ∀ e ∈ scope, e.2.WellFormed names.graph)
    {fields : List (String × Json)} {key : String} {ts : List Ty}
    (hts : resolveList names scope fields key = .ok ts) : ∀ t ∈ ts, t.WellFormed names.graph := by
  simp only [resolveList, bind_eq_ok] at hts
  obtain ⟨items, _, hts⟩ := hts
  exact (resolve_parts h hscope).2 items ts hts

/-! ## Signatures and contexts -/

/-- **Explicit implementations in documents are well-formed.**

**Proof sketch.** A slot that is written as an object was resolved to an instantiation and a
symbol.  What is written as a text stands for an unresolved type inside the root, and a flag or
nothing for no type at all. -/
theorem resolveImpl_wellFormed {pending : Pending}
    (hscope : ∀ e ∈ pending.scope, e.2.WellFormed names.graph) {impl : ExplicitImpl}
    (himpl : resolveImpl names pending = .ok impl) : impl.WellFormed names.graph := by
  unfold resolveImpl at himpl
  split at himpl
  · simp only [bind_eq_ok, pure_eq_ok] at himpl
    obtain ⟨t, ht, on, hon, _, _, member, hmember, rfl⟩ := himpl
    have hinst := asInst_wellFormed hon (resolve_wellFormed h hscope ht)
    refine ⟨fun htarget => ?_, by simp⟩
    simp only [ExplicitImpl.target?, if_true, Option.bind_some, Option.map_some,
      Option.some.injEq, Prod.mk.injEq] at htarget
    obtain ⟨rfl, rfl⟩ := htarget
    exact ⟨h.lookup hmember, by simpa using hinst⟩
  · split at himpl
    · rw [Except.ok.injEq] at himpl
      exact himpl ▸ .absent names.graph
    · rw [Except.ok.injEq] at himpl
      subst himpl
      exact ⟨by simp [ExplicitImpl.target?], by simp⟩
    · simp only [bind_eq_ok, pure_eq_ok] at himpl
      obtain ⟨text, _, rfl⟩ := himpl
      refine ⟨by simp [ExplicitImpl.target?], ?_⟩
      rintro t ⟨rfl⟩
      refine .errorInSpace ?_ (by simp)
      rw [h.nested.root_eq, Graph.kind?, h.nested.root_symbol]
      rfl
  · simp at himpl

/-- The result of a method is well-formed. -/
lemma resolveResult_wellFormed {pending : Pending}
    (hscope : ∀ e ∈ pending.scope, e.2.WellFormed names.graph) {result : Option Ty}
    (hresult : resolveResult names pending = .ok result) :
    ∀ t ∈ result, t.WellFormed names.graph := by
  unfold resolveResult at hresult
  split at hresult
  · rw [Except.ok.injEq] at hresult
    simp [← hresult]
  · obtain ⟨t, ht, rfl⟩ := map_eq_ok.1 hresult
    rintro _ ⟨rfl⟩
    exact resolve_wellFormed h hscope ht

/-- **The contexts of requests are well-formed.**

**Proof sketch.** Arguments of both lists are resolved types, and those of an instantiation that is
given instead are the arguments of a well-formed one. -/
theorem readContext_wellFormed {fields : List (String × Json)} {ctx : Option Context}
    (hctx : readContext names fields = .ok ctx) : ∀ c ∈ ctx, c.WellFormed names.graph := by
  simp only [readContext, bind_eq_ok] at hctx
  obtain ⟨ofMethod, hmethod, hctx⟩ := hctx
  have hmethod := resolveList_wellFormed h (by simp) hmethod
  split at hctx
  · simp only [bind_eq_ok, pure_eq_ok] at hctx
    obtain ⟨t, ht, on, hon, rfl⟩ := hctx
    rintro c ⟨rfl⟩
    have hinst := asInst_wellFormed hon (resolve_wellFormed h (by simp) ht)
    exact .ofInst (by simpa using hinst) hmethod
  · split at hctx
    · simp only [bind_eq_ok, pure_eq_ok] at hctx
      obtain ⟨ofType, htype, rfl⟩ := hctx
      rintro c ⟨rfl⟩
      exact ⟨resolveList_wellFormed h (by simp) htype, hmethod⟩
    · rw [pure_eq_ok] at hctx
      simp [← hctx]

end

end Document

end DisplayNames
