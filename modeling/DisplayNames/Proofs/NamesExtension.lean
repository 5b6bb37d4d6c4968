import DisplayNames.Proofs.GraphExtension

/-!
# Names inside more names

If every key keeps its symbol and every symbol keeps its details, then everything that names are
resolved for keeps its result: types, explicit implementations, signatures, contexts and requests.
More keys and more symbols can only help something that did not resolve.

Computations are compared by what they give.  One carries over to another if the other gives
whatever the first one gives, and this is kept by every step of a computation.

## Main definitions

* `DisplayNames.Carries` — what the first computation gives, the second one gives.
* `DisplayNames.Document.Names.Within` — keys and symbols are kept.

## Main results

* `DisplayNames.Document.Names.Within.resolve` — types carry over.
* `DisplayNames.Document.Names.Within.resolveSignature` — signatures carry over.
* `DisplayNames.Document.Names.Within.readRequests` — requests carry over.
-/

set_option relaxedAutoImplicit false
set_option autoImplicit false

namespace DisplayNames

/-! ## Computations -/

/-- What the first computation gives, the second one gives. -/
def Carries {ε α : Type} (x y : Except ε α) : Prop := ∀ a, x = .ok a → y = .ok a

namespace Carries

variable {ε α β : Type}

/-- A computation carries over to itself. -/
lemma refl (x : Except ε α) : Carries x x := fun _ h => h

/-- What gives nothing carries over to anything. -/
lemma error (e : ε) (y : Except ε α) : Carries (.error e) y := fun _ h => nomatch h

/-- What is broken off carries over to anything. -/
lemma throw (e : ε) (y : Except ε α) : Carries (throw e) y := fun _ h => absurd h throw_ne_ok

/-- A step carries over if its continuation does for what the step can give. -/
lemma bind {x y : Except ε α} {f k : α → Except ε β} (h : Carries x y)
    (hf : ∀ a, x = .ok a → Carries (f a) (k a)) : Carries (x >>= f) (y >>= k) := by
  intro b hb
  obtain ⟨a, ha, hb⟩ := bind_eq_ok.1 hb
  exact bind_eq_ok.2 ⟨a, h a ha, hf a ha b hb⟩

/-- A changed result carries over. -/
lemma map {x y : Except ε α} (h : Carries x y) (f : α → β) : Carries (x.map f) (y.map f) := by
  intro b hb
  obtain ⟨a, ha, rfl⟩ := map_eq_ok.1 hb
  exact map_eq_ok.2 ⟨a, h a ha, rfl⟩

/-- The same for a step whose continuation has a changed result. -/
lemma map_bind {γ : Type} {x y : Except ε α} {f k : α → Except ε β} {change : β → γ}
    (h : Carries x y) (hf : ∀ a, x = .ok a → Carries ((f a).map change) ((k a).map change)) :
    Carries ((x >>= f).map change) ((y >>= k).map change) := by
  intro c hc
  obtain ⟨b, hb, hbc⟩ := map_eq_ok.1 hc
  obtain ⟨a, ha, hb⟩ := bind_eq_ok.1 hb
  obtain ⟨b', hb', hbc'⟩ := map_eq_ok.1 (hf a ha c (map_eq_ok.2 ⟨b, hb, hbc⟩))
  exact map_eq_ok.2 ⟨b', bind_eq_ok.2 ⟨a, h a ha, hb'⟩, hbc'⟩

/-- What is given carries over to what changes into the same. -/
lemma map_pure {change : α → β} {a b : α} (hab : change a = change b) :
    Carries ((pure a : Except ε α).map change) ((pure b : Except ε α).map change) := by
  intro c hc
  obtain ⟨a', ha, rfl⟩ := map_eq_ok.1 hc
  obtain rfl : a = a' := pure_eq_ok.1 ha
  exact map_eq_ok.2 ⟨b, rfl, hab.symm⟩

/-- A computation that may be missing carries over together with its replacement. -/
lemma getD {x y : Option (Except ε α)} (h : Option.Rel Carries x y) (e : ε) :
    Carries (x.getD (.error e)) (y.getD (.error e)) := by
  cases h with
  | some h => exact h
  | none => exact .refl _

end Carries

namespace Document

/-- Every key of the first names is one of the second, for the same symbol. -/
structure Names.Within (names names' : Names) : Prop where
  graph : names.graph.Within names'.graph
  registry {key : String} {id : SymId} : names.registry.get? key = some id →
    names'.registry.get? key = some id

namespace Names.Within

variable {names names' : Names} (h : names.Within names')
include h

/-- Keys that are looked up carry over. -/
lemma lookup (key : String) :
    Carries (names.registry.lookup key) (names'.registry.lookup key) := by
  intro id hid
  unfold Registry.lookup at hid ⊢
  split at hid
  · cases hid
  · rename_i id' hget
    rw [h.registry hget]
    exact hid

variable (hnames : names.Sound) (hgraph : names'.graph.Rooted)
include hnames hgraph

/-! ## Types -/

omit hgraph in
/-- The namespaces of unresolved types carry over. -/
lemma errorNamespace (fields : List (String × Json)) :
    Carries (errorNamespace names fields) (errorNamespace names' fields) := by
  unfold Document.errorNamespace
  split
  · refine .bind (.refl _) fun path _ => .bind (h.lookup path) fun id hid => ?_
    obtain ⟨s, hs⟩ := hnames.lookup hid
    rw [h.graph.find?_eq hs]
    exact .refl _
  · rw [h.graph.root_eq]
    exact .refl _

/-- A type object carries over if its parts do.

**Proof sketch.** A case for each form.  The parts carry over by assumption, a key that is found is
found again, and what it denotes is of the same kind and instantiated alike. -/
lemma assemble (fields : List (String × Json))
    {child child' : String → Option (Except DocumentError Ty)}
    {args args' : Except DocumentError (List Ty)}
    (hchild : ∀ key, Option.Rel Carries (child key) (child' key)) (hargs : Carries args args') :
    Carries (assemble names fields child args) (assemble names' fields child' args') := by
  have hrequired (form : TypeForm) :
      Carries ((child form.key).getD (.error (.unrecognizedType fields)))
        ((child' form.key).getD (.error (.unrecognizedType fields))) :=
    .getD (hchild form.key) _
  unfold Document.assemble
  dsimp only
  cases TypeForm.of? fields with
  | none => exact .error _ _
  | some form =>
    cases form with
    | named =>
      refine .bind (.refl _) fun path _ => .bind (h.lookup path) fun id hid => ?_
      obtain ⟨s, hs⟩ := hnames.lookup hid
      rw [h.graph.isAggregate_eq hs]
      split
      · exact .bind (.throw _ _) fun _ hthrow => absurd hthrow throw_ne_ok
      · refine .bind hargs fun ts _ => ?_
        have houter := hchild "outer"
        generalize child "outer" = outer at houter ⊢
        generalize child' "outer" = outer' at houter ⊢
        simp only [h.graph.instantiate_eq hs hnames.nested.toRooted hgraph]
        cases houter with
        | none => exact .refl _
        | some houter => exact .bind houter fun _ _ => .refl _
    | array =>
      dsimp only
      split
      · exact .bind (hrequired .array) fun _ _ => .refl _
      · exact .refl _
    | pointer => exact .bind (hrequired .pointer) fun _ _ => .refl _
    | nullable => exact .bind (hrequired .nullable) fun _ _ => .refl _
    | ref => exact .bind (hrequired .ref) fun _ _ => .refl _
    | out => exact .bind (hrequired .out) fun _ _ => .refl _
    | param => exact .refl _
    | error =>
      dsimp only
      split
      · exact .refl _
      · refine .bind (.refl _) fun name _ => .bind hargs fun ts _ => ?_
        have hparent := hchild "parent"
        generalize child "parent" = parent at hparent ⊢
        generalize child' "parent" = parent' at hparent ⊢
        cases hparent with
        | none => exact .bind (h.errorNamespace hnames fields) fun _ _ => .refl _
        | some hparent => exact .bind hparent fun _ _ => .refl _
    | special => exact .refl _

/-- A type that is written as a name carries over. -/
lemma resolveName (scope : Scope) (name : String) :
    Carries (resolveName names scope name) (resolveName names' scope name) := by
  unfold Document.resolveName
  cases Table.get? scope name with
  | some t => exact .refl _
  | none =>
    dsimp only
    cases hget : names.registry.get? name with
    | none => exact .error _ _
    | some id =>
      obtain ⟨s, hs⟩ := hnames.known hget
      rw [h.registry hget, Option.filter_some, Option.filter_some, h.graph.isAggregate_eq hs]
      by_cases hkind : names.graph.isAggregate id = true
      · rw [if_pos hkind]
        dsimp only
        rw [h.graph.instantiate_eq hs hnames.nested.toRooted hgraph]
        exact .refl _
      · rw [if_neg hkind]
        exact .error _ _

/-- Types carry over, and so do the arguments of an object, lists of types and the types under the
keys of an object.

**Proof sketch.** The recursion of the reader.  Only names and keys look into the registry, and
those that are found are kept. -/
lemma resolve_parts (scope : Scope) :
    (∀ json, Carries (resolve names scope json) (resolve names' scope json)) ∧
      (∀ fields, Carries (resolveArgs names scope fields) (resolveArgs names' scope fields)) ∧
        (∀ items, Carries (resolveAll names scope items) (resolveAll names' scope items)) ∧
          ∀ key fields, Option.Rel Carries (resolveAt names scope key fields)
            (resolveAt names' scope key fields) := by
  apply resolve.mutual_induct
  case case1 =>
    intro name
    rw [resolve, resolve]
    exact h.resolveName hnames hgraph scope name
  case case2 =>
    intro fields hat hargs
    rw [resolve, resolve]
    exact h.assemble hnames hgraph fields hat hargs
  case case3 =>
    intro value hstr hobj
    cases value with
    | str name => exact (hstr name rfl).elim
    | obj fields => exact (hobj fields rfl).elim
    | _ => exact .error _ _
  case case4 => exact .refl _
  case case5 =>
    intro value rest ih ihrest
    rw [resolveAll, resolveAll]
    exact .bind ih fun _ _ => .bind ihrest fun _ _ => .refl _
  case case6 => exact .refl _
  case case7 =>
    intro rest items ih
    unfold resolveArgs
    rw [if_pos rfl, if_pos rfl]
    exact ih
  case case8 =>
    intro value rest hvalue
    unfold resolveArgs
    rw [if_pos rfl]
    cases value with
    | arr items => exact (hvalue items rfl).elim
    | _ => exact .error _ _
  case case9 =>
    intro key value rest hkey ih
    unfold resolveArgs
    rw [if_neg hkey, if_neg hkey]
    exact ih
  case case10 => exact fun key => .none
  case case11 =>
    intro key value rest ih
    unfold resolveAt
    rw [if_pos rfl, if_pos rfl]
    exact .some ih
  case case12 =>
    intro key key' value rest hkey ih
    unfold resolveAt
    rw [if_neg hkey, if_neg hkey]
    exact ih

/-- **Types carry over.** -/
theorem resolve (scope : Scope) (json : Json) :
    Carries (resolve names scope json) (resolve names' scope json) :=
  (h.resolve_parts hnames hgraph scope).1 json

/-- Lists of types carry over. -/
lemma resolveList (scope : Scope) (fields : List (String × Json)) (key : String) :
    Carries (resolveList names scope fields key) (resolveList names' scope fields key) :=
  .bind (.refl _) fun items _ => (h.resolve_parts hnames hgraph scope).2.2.1 items

/-! ## Signatures -/

/-- Explicit implementations carry over. -/
lemma resolveImpl (pending : Pending) :
    Carries (resolveImpl names pending) (resolveImpl names' pending) := by
  unfold Document.resolveImpl
  split
  · refine .bind (h.resolve hnames hgraph _ _) fun t _ => .bind (.refl _) fun on _ => ?_
    exact .bind (.refl _) fun path _ => .bind (h.lookup path) fun _ _ => .refl _
  · rw [h.graph.root_eq]
    exact .refl _
  · exact .error _ _

/-- The results of methods carry over. -/
lemma resolveResult (pending : Pending) :
    Carries (resolveResult names pending) (resolveResult names' pending) := by
  unfold Document.resolveResult
  split
  · exact .refl _
  · exact (h.resolve hnames hgraph _ _).map some

/-- **Signatures carry over.** -/
theorem resolveSignature (d : Declared) :
    Carries (resolveSignature names d) (resolveSignature names' d) := by
  unfold Document.resolveSignature
  split
  · refine .bind (h.resolveList hnames hgraph _ _ _) fun params _ => ?_
    refine .bind (h.resolveResult hnames hgraph _) fun returns _ => ?_
    exact .bind (h.resolveImpl hnames hgraph _) fun impl _ => .refl _
  · refine .bind (h.resolveList hnames hgraph _ _ _) fun params _ => ?_
    exact .bind (h.resolveImpl hnames hgraph _) fun impl _ => .refl _
  · exact .refl _

/-- The signatures of several declarations carry over. -/
lemma resolveSignatures (all : List Declared) :
    Carries (resolveSignatures names all) (resolveSignatures names' all) := by
  induction all with
  | nil => exact .refl _
  | cons d rest ih =>
    rw [Document.resolveSignatures, Document.resolveSignatures]
    exact .bind (h.resolveSignature hnames hgraph d) fun symbol _ => .bind ih fun rest _ => .refl _

/-! ## Requests -/

/-- The contexts of requests carry over. -/
lemma readContext (fields : List (String × Json)) :
    Carries (readContext names fields) (readContext names' fields) := by
  refine .bind (h.resolveList hnames hgraph _ _ _) fun ofMethod _ => ?_
  split
  · exact .bind (h.resolve hnames hgraph _ _) fun t _ => .refl _
  · split
    · exact .bind (h.resolveList hnames hgraph _ _ _) fun ofType _ => .refl _
    · exact .refl _

/-- A request carries over. -/
lemma readRequest (fields : List (String × Json)) :
    Carries (readRequest names fields) (readRequest names' fields) := by
  refine .bind (h.readContext hnames hgraph fields) fun ctx _ => ?_
  split
  · exact .bind (.refl _) fun path _ => .bind (h.lookup path) fun id _ => .refl _
  · split
    · exact .throw _ _
    · exact .bind (h.resolve hnames hgraph _ _) fun t _ => .refl _

/-- **The requests of a document carry over.** -/
theorem readRequests (position : Nat) (items : List Json) :
    Carries (readRequests names position items) (readRequests names' position items) := by
  induction items generalizing position with
  | nil => exact .refl _
  | cons item rest ih =>
    cases item with
    | obj fields =>
      rw [Document.readRequests, Document.readRequests]
      exact .bind (h.readRequest hnames hgraph fields) fun request _ =>
        .bind (ih (position + 1)) fun requests _ => .refl _
    | _ => exact .error _ _

end Names.Within

end Document

end DisplayNames
