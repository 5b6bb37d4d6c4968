import DisplayNames.Proofs.AddedDeclarations
import DisplayNames.Proofs.DeclarationOrder
import DisplayNames.Proofs.SignatureParameters
import DisplayNames.Proofs.WrittenTypes
import Mathlib.Algebra.GroupWithZero.Nat
import Mathlib.Data.List.Induction

/-!
# Lexical scope

What a name denotes that is written as a type in a signature: the member's own type parameter of
that name, else the parameter of the nearest enclosing aggregate that has one, else the aggregate
under that key.  Of several parameters of one declaration with the same name the last one counts.

The walk copies the scope at every declaration and lets the parameters of the declaration enter in
front, so the scope of a signature is determined by the parameters of the declarations around it.
Signatures are filled in when all keys are entered, so it does not matter whether an aggregate is
declared before or after its use.

## Main definitions

* `DisplayNames.Document.LastAt` — the last position of a name.
* `DisplayNames.Document.Denotes` — what a name denotes.
* `DisplayNames.Document.Stands` — where in a document a declaration stands.
* `DisplayNames.Document.scopeOf` — the scope inside aggregates with given parameters.

## Main results

* `DisplayNames.Document.resolveName_eq_ok` — a name is resolved to what it denotes.
* `DisplayNames.Document.Denotes.unique` — a name denotes one type at most.
* `DisplayNames.Document.Stands.walked` — the scope at a declaration.
* `DisplayNames.Document.name_denotes` — names in the signatures of a document.
-/

set_option relaxedAutoImplicit false
set_option autoImplicit false

namespace DisplayNames

namespace Document

/-! ## The last position of a name -/

/-- The name stands at the position and at no later one. -/
def LastAt (names : List String) (s : String) (i : Nat) : Prop :=
  names[i]? = some s ∧ ∀ j, i < j → names[j]? ≠ some s

section

variable {names : List String} {s : String} {i : Nat}

/-- There is one last position. -/
lemma LastAt.unique {j : Nat} (hi : LastAt names s i) (hj : LastAt names s j) : i = j := by
  rcases Nat.lt_trichotomy i j with hlt | heq | hlt
  · exact absurd hj.1 (hi.2 j hlt)
  · exact heq
  · exact absurd hi.1 (hj.2 i hlt)

/-- A name that is listed last stands at the end. -/
lemma lastAt_append_self (names : List String) (s : String) :
    LastAt (names ++ [s]) s names.length := by
  refine ⟨by simp, fun j hj => ?_⟩
  have hlength : (names ++ [s]).length ≤ j := by
    rw [List.length_append]
    exact hj
  rw [List.getElem?_eq_none hlength]
  simp

/-- Another name at the end does not change the last position. -/
lemma lastAt_append_of_ne {name : String} (hne : name ≠ s) :
    LastAt (names ++ [name]) s i ↔ LastAt names s i := by
  have hget (j : Nat) : (names ++ [name])[j]? = some s ↔ names[j]? = some s := by
    rw [List.getElem?_append]
    split
    · exact Iff.rfl
    · rename_i hj
      rw [List.getElem?_eq_none (Nat.le_of_not_lt hj)]
      cases hk : j - names.length <;> simp [hne]
  simp only [LastAt, hget, ne_eq]

/-- A name that occurs has a last position. -/
lemma exists_lastAt (h : s ∈ names) : ∃ i, LastAt names s i := by
  induction names using List.reverseRecOn with
  | nil => cases h
  | append_singleton names name ih =>
    by_cases hname : name = s
    · exact ⟨names.length, hname ▸ lastAt_append_self names name⟩
    · have hmem : s ∈ names := by simpa [Ne.symm hname] using h
      obtain ⟨i, hi⟩ := ih hmem
      exact ⟨i, (lastAt_append_of_ne hname).2 hi⟩

end

/-! ## What a name denotes -/

/-- What a name denotes in the signature of a member: `own` are the type parameters of the member
itself, `enclosing` those of the declarations around it, innermost first. -/
inductive Denotes (g : Graph) (registry : Registry) (own : List String)
    (enclosing : List (List String)) (s : String) : Ty → Prop
  /-- The last of the member's own parameters of that name. -/
  | own {i : Nat} : LastAt own s i →
      Denotes g registry own enclosing s (.param (.number i) true (some s))
  /-- The last parameter of that name of the nearest declaration that has one, numbered behind the
  parameters of the declarations around that one. -/
  | enclosing {inner : List (List String)} {names : List String} {outer : List (List String)}
    {i : Nat} : s ∉ own → enclosing = inner ++ names :: outer → (∀ closer ∈ inner, s ∉ closer) →
      LastAt names s i →
      Denotes g registry own enclosing s
        (.param (.number ((outer.map List.length).sum + i : Nat)) false (some s))
  /-- The aggregate under that key without arguments.  If it is nested, it is taken inside the
  enclosing aggregate over its own parameters. -/
  | aggregate {id : SymId} : s ∉ own → (∀ names ∈ enclosing, s ∉ names) →
      registry.get? s = some id → g.kind? id = some .aggregate →
      Denotes g registry own enclosing s
        (.aggregate (.mk id [] ((g.outerAggregate? id).bind g.thisInst?)))

/-- What a name denotes is decided by the kinds of the symbols and by what the aggregates are nested
in. -/
lemma Denotes.congr {g g' : Graph} {registry : Registry} {own : List String}
    {enclosing : List (List String)} {s : String} {t : Ty} (hkind : ∀ id, g'.kind? id = g.kind? id)
    (houter : ∀ id, g'.outerAggregate? id = g.outerAggregate? id)
    (hthis : ∀ id, g'.thisInst? id = g.thisInst? id) (h : Denotes g registry own enclosing s t) :
    Denotes g' registry own enclosing s t := by
  cases h with
  | own hi => exact .own hi
  | enclosing hown henclosing hinner hi => exact .enclosing hown henclosing hinner hi
  | @aggregate id hown hnone hget haggregate =>
    have hinside : (g.outerAggregate? id).bind g.thisInst? =
        (g'.outerAggregate? id).bind g'.thisInst? := by
      rw [houter, funext hthis]
    rw [hinside]
    exact .aggregate hown hnone hget ((hkind id).trans haggregate)

/-- Signatures do not influence what a name denotes. -/
lemma Holds.denotes_iff {g : Graph} {all : List Declared} (h : Holds g all) {registry : Registry}
    {own : List String} {enclosing : List (List String)} {s : String} {t : Ty} :
    Denotes g registry own enclosing s t ↔
      Denotes (declaredGraph all) registry own enclosing s t := by
  have hthis (id : SymId) : g.thisInst? id = (declaredGraph all).thisInst? id := by
    rw [Graph.thisInst?, Graph.thisInst?, h.levels_eq]
  exact ⟨.congr (fun id => (h.kind?_eq id).symm) (fun id => (h.outerAggregate?_eq id).symm)
    fun id => (hthis id).symm, .congr h.kind?_eq h.outerAggregate?_eq hthis⟩

/-! ## Scopes -/

/-- The scope inside declarations with those type parameters, innermost first. -/
def scopeOf : List (List String) → Scope
  | [] => []
  | names :: outer =>
    (scopeOf outer).enter names
      (typeParams (outer.map List.length).sum false (names.map some))

section

variable {scope : Scope} {names : List String} {s : String} {first : Nat} {ofMethod : Bool}

/-- Of the parameters that enter a scope the last one comes first. -/
lemma enter_append_singleton (name : String) :
    scope.enter (names ++ [name]) (typeParams first ofMethod ((names ++ [name]).map some)) =
      (name, .param (.number (first + names.length : Nat)) ofMethod (some name)) ::
        scope.enter names (typeParams first ofMethod (names.map some)) := by
  have hlength : names.length = (typeParams first ofMethod (names.map some)).length := by
    simp [typeParams]
  rw [Scope.enter, List.map_append, typeParams_append, List.zip_append hlength]
  simp [typeParams, Scope.enter]

/-- A name that enters a scope is found at its last position. -/
lemma get?_enter_of_lastAt {i : Nat} (h : LastAt names s i) :
    Table.get? (scope.enter names (typeParams first ofMethod (names.map some))) s =
      some (.param (.number (first + i : Nat)) ofMethod (some s)) := by
  induction names using List.reverseRecOn with
  | nil => cases h.1
  | append_singleton names name ih =>
    rw [enter_append_singleton, Table.get?_cons]
    by_cases hname : name = s
    · subst hname
      rw [if_pos rfl, h.unique (lastAt_append_self names name)]
    · rw [if_neg hname, ih ((lastAt_append_of_ne hname).1 h)]

/-- Any other name is found where it was found before. -/
lemma get?_enter_of_not_mem (h : s ∉ names) (params : List Ty) :
    Table.get? (scope.enter names params) s = Table.get? scope s := by
  have hfree : Table.get? (names.zip params).reverse s = none := by
    refine Table.get?_of_not_mem fun hmem => ?_
    obtain ⟨e, he, rfl⟩ := List.mem_map.1 hmem
    exact h (List.of_mem_zip (List.mem_reverse.1 he)).1
  rw [Scope.enter, Table.get?_append, hfree, Option.none_or]

end

section

variable {enclosing : List (List String)} {s : String}

/-- A name is found at the nearest declaration that has a parameter of that name. -/
lemma get?_scopeOf_of_lastAt {inner outer : List (List String)} {names : List String} {i : Nat}
    (hinner : ∀ closer ∈ inner, s ∉ closer) (hi : LastAt names s i) :
    Table.get? (scopeOf (inner ++ names :: outer)) s =
      some (.param (.number ((outer.map List.length).sum + i : Nat)) false (some s)) := by
  induction inner with
  | nil => exact get?_enter_of_lastAt hi
  | cons closer inner ih =>
    rw [List.cons_append, scopeOf, get?_enter_of_not_mem (hinner closer List.mem_cons_self),
      ih fun names hnames => hinner names (List.mem_cons_of_mem _ hnames)]

/-- A name that no declaration has as a parameter is not found. -/
lemma get?_scopeOf_of_not_mem (h : ∀ names ∈ enclosing, s ∉ names) :
    Table.get? (scopeOf enclosing) s = none := by
  induction enclosing with
  | nil => rfl
  | cons names outer ih =>
    rw [scopeOf, get?_enter_of_not_mem (h names List.mem_cons_self),
      ih fun names hnames => h names (List.mem_cons_of_mem _ hnames)]

/-- If some declaration has a parameter of that name, there is a nearest one. -/
lemma exists_nearest (h : ∃ names ∈ enclosing, s ∈ names) :
    ∃ inner names outer, enclosing = inner ++ names :: outer ∧ (∀ closer ∈ inner, s ∉ closer) ∧
      s ∈ names := by
  induction enclosing with
  | nil => simp at h
  | cons names outer ih =>
    by_cases hmem : s ∈ names
    · exact ⟨[], names, outer, rfl, by simp, hmem⟩
    · obtain ⟨inner, nearest, rest, rfl, hinner, hnearest⟩ := ih (by simpa [hmem] using h)
      exact ⟨names :: inner, nearest, rest, rfl, by simpa [hmem] using hinner, hnearest⟩

end

/-! ## Names -/

section

variable {names : Names} {own : List String} {enclosing : List (List String)} {s : String} {t : Ty}

/-- A name that denotes a type is resolved to it. -/
lemma Denotes.resolved (h : Denotes names.graph names.registry own enclosing s t) :
    resolveName names ((scopeOf enclosing).enter own (typeParams 0 true (own.map some))) s =
      .ok t := by
  unfold resolveName
  cases h with
  | own hi => rw [get?_enter_of_lastAt hi, Nat.zero_add]
  | enclosing hown henclosing hinner hi =>
    rw [get?_enter_of_not_mem hown, henclosing, get?_scopeOf_of_lastAt hinner hi]
  | aggregate hown hnone hget hkind =>
    rw [get?_enter_of_not_mem hown, get?_scopeOf_of_not_mem hnone, hget,
      Option.filter_some_pos (Graph.isAggregate_eq_true.2 hkind)]
    rfl

/-- **A name is resolved to what it denotes**, in the scope of a member with those type parameters
inside declarations with those.

**Proof sketch.** What a name denotes is what it is resolved to, by `Denotes.resolved`.  Conversely
the name is one of the member's own parameters, or one of an aggregate around it, or neither.  In
the first two cases it denotes a parameter and is resolved to no other type; in the third one
resolution looks into the registry. -/
theorem resolveName_eq_ok :
    resolveName names ((scopeOf enclosing).enter own (typeParams 0 true (own.map some))) s = .ok t ↔
      Denotes names.graph names.registry own enclosing s t := by
  refine ⟨fun h => ?_, Denotes.resolved⟩
  have hdenotes {u : Ty} (hu : Denotes names.graph names.registry own enclosing s u) :
      Denotes names.graph names.registry own enclosing s t :=
    Except.ok.inj (hu.resolved.symm.trans h) ▸ hu
  by_cases hown : s ∈ own
  · obtain ⟨i, hi⟩ := exists_lastAt hown
    exact hdenotes (.own hi)
  · by_cases hsome : ∃ names ∈ enclosing, s ∈ names
    · obtain ⟨inner, nearest, outer, henclosing, hinner, hnearest⟩ := exists_nearest hsome
      obtain ⟨i, hi⟩ := exists_lastAt hnearest
      exact hdenotes (.enclosing hown henclosing hinner hi)
    · have hnone : ∀ names ∈ enclosing, s ∉ names := fun names hnames hmem =>
        hsome ⟨names, hnames, hmem⟩
      unfold resolveName at h
      rw [get?_enter_of_not_mem hown, get?_scopeOf_of_not_mem hnone] at h
      dsimp only at h
      split at h
      · rename_i id hid
        obtain ⟨hget, haggregate⟩ := Option.filter_eq_some_iff.1 hid
        obtain rfl := Except.ok.inj h
        exact .aggregate hown hnone hget (Graph.isAggregate_eq_true.1 haggregate)
      · cases h

/-- A name denotes one type at most. -/
theorem Denotes.unique {g : Graph} {registry : Registry} {u : Ty}
    (ht : Denotes g registry own enclosing s t) (hu : Denotes g registry own enclosing s u) :
    t = u := by
  have hresolved {v : Ty} (hv : Denotes g registry own enclosing s v) :
      resolveName ⟨g, registry⟩
          ((scopeOf enclosing).enter own (typeParams 0 true (own.map some))) s =
        .ok v := hv.resolved
  exact Except.ok.inj ((hresolved ht).symm.trans (hresolved hu))

end

/-! ## Declarations in a document -/

/-- Namespaces and aggregates have members. -/
def HasMembers (fields : List (String × Json)) : Prop :=
  ∃ kind, Json.fieldD fields "kind" .null = .str kind ∧
    (kind = "namespace" ∨ ∃ aggregate, aggregateKind? kind = some aggregate)

/-- The type parameters of a declaration: those of an aggregate or a method. -/
def declaredParams (fields : List (String × Json)) : List String :=
  match Json.fieldD fields "kind" .null with
  | .str kind =>
    if (aggregateKind? kind).isSome || kind = "method" then
      (stringsField fields "type_params").toOption.getD []
    else []
  | _ => []

/-- The step to the declaration with those fields behind siblings. -/
def memberStep (front : List Json) (fields : List (String × Json)) : Step :=
  .member (memberName (.obj fields)) ((front.map memberName).count (memberName (.obj fields)))

/-- A declaration with those fields stands in a document, inside declarations with the fields
`around`, innermost first, and declares the symbol `id`. -/
inductive Stands (document : List (String × Json)) :
    (around : List (List (String × Json))) → (id : SymId) → (fields : List (String × Json)) → Prop
  | top {fields : List (String × Json)} {front back : List Json} :
    Json.listField document "declarations" = .ok (front ++ .obj fields :: back) →
      Stands document [] (SymId.root.child (memberStep front fields)) fields
  | inside {around : List (List (String × Json))} {id : SymId} {outer fields : List (String × Json)}
    {front back : List Json} :
    Stands document around id outer → HasMembers outer →
      Table.get? outer "members" = some (.arr (front ++ .obj fields :: back)) →
      Stands document (outer :: around) (id.child (memberStep front fields)) fields

/-! ## The scope at a declaration -/

section

variable {place : Place} {copy : Nat} {fields : List (String × Json)} {d : Declared}
  {inside : Option Place}

/-- The parameters of a declaration with members enter the scope of its members, numbered behind
those around it.

**Proof sketch.** Only namespaces and aggregates have members.  A namespace has no parameters and
hands on the scope of its place; an aggregate enters its own behind those. -/
lemma inside_of_hasMembers (h : header place copy fields = .ok (d, inside))
    (hmembers : HasMembers fields) :
    ∃ next, inside = some next ∧ next.id = d.id ∧
      next.scope = place.scope.enter (declaredParams fields)
        (typeParams place.surroundings.params false ((declaredParams fields).map some)) ∧
      next.surroundings.params = (declaredParams fields).length + place.surroundings.params := by
  obtain ⟨kind, hkind, rfl | ⟨aggregate, haggregate⟩⟩ := hmembers
  · have hparams : declaredParams fields = [] := by simp [declaredParams, hkind, aggregateKind?]
    simp only [header, hkind, if_true, namespaceHeader] at h
    split at h
    · simp only [bind_eq_ok, throw_ne_ok, false_and, exists_false] at h
    · simp only [bind_eq_ok, pure_eq_ok, Prod.mk.injEq] at h
      obtain ⟨name, _, explicitId, _, rfl, rfl⟩ := h
      refine ⟨_, rfl, rfl, ?_, ?_⟩
      · rw [hparams]
        rfl
      · rw [hparams, List.length_nil, Nat.zero_add]
  · have hne : kind ≠ "namespace" := by
      rintro rfl
      cases haggregate
    simp only [header, hkind, hne, if_false, haggregate, aggregateHeader, bind_eq_ok, pure_eq_ok,
      Prod.mk.injEq] at h
    obtain ⟨name, _, names, hnames, explicitId, _, rfl, rfl⟩ := h
    have hparams : declaredParams fields = names := by
      simp [declaredParams, hkind, haggregate, hnames, Except.toOption]
    exact ⟨_, rfl, rfl, by rw [hparams]; rfl, by rw [hparams]; exact Nat.add_comm _ _⟩

/-- A member other than a namespace or an aggregate is declared as its kind says. -/
lemma memberHeader_of_header (h : header place copy fields = .ok (d, inside)) {kind : String}
    (hkind : Json.fieldD fields "kind" .null = .str kind)
    {member : Place → Nat → List (String × Json) → Except DocumentError (Declared × Option Place)}
    (hmember : memberHeader? kind = some member) : member place copy fields = .ok (d, inside) := by
  have hne : kind ≠ "namespace" := by
    rintro rfl
    cases hmember
  have hnone : aggregateKind? kind = none := by
    unfold memberHeader? at hmember
    split at hmember
    case h_5 => cases hmember
    all_goals rfl
  simp only [header, hkind, hne, if_false, hnone, hmember] at h
  split at h
  · cases h
  · exact h

/-- The parameters of a member enter the scope of its signature. -/
lemma pending_of_signed (h : header place copy fields = .ok (d, inside))
    (hkind : Json.fieldD fields "kind" .null = .str "method" ∨
      Json.fieldD fields "kind" .null = .str "property") :
    d.pending = some ⟨fields, place.scope.enter (declaredParams fields)
        (typeParams 0 true ((declaredParams fields).map some))⟩ ∧
      ((∃ m, d.symbol.detail = .method m) ∨ (∃ p, d.symbol.detail = .property p) ∧
        Json.fieldD fields "kind" .null = .str "property") := by
  rcases hkind with hkind | hkind
  · obtain ⟨name, names, _, m, _, hnames, _, hvars, _, rfl, _⟩ :=
      exists_of_methodHeader (memberHeader_of_header h hkind rfl)
    have hparams : declaredParams fields = names := by
      simp [declaredParams, hkind, hnames, Except.toOption]
    exact ⟨by rw [hparams, hvars], .inl ⟨m, rfl⟩⟩
  · have hparams : declaredParams fields = [] := by simp [declaredParams, hkind, aggregateKind?]
    replace h : propertyHeader place copy fields = .ok (d, inside) :=
      memberHeader_of_header h hkind rfl
    simp only [propertyHeader, bind_eq_ok, pure_eq_ok, Prod.mk.injEq] at h
    obtain ⟨name, _, explicitId, _, rfl, _⟩ := h
    exact ⟨by rw [hparams]; rfl, .inr ⟨⟨_, rfl⟩, hkind⟩⟩

end

/-- A walk with the contributions `all` has gone through the declaration with those fields at a
place, behind `copy` siblings of its name. -/
structure Walked (all : List Declared) (place : Place) (copy : Nat)
    (fields : List (String × Json)) : Prop where
  stop : (declare place copy (.obj fields)).stop = none
  subset : (declare place copy (.obj fields)).declared ⊆ all

section

variable {all : List Declared} {place : Place} {fields : List (String × Json)}

/-- A walk that goes through a list of siblings goes through each of them. -/
lemma walked_of_declareAll {front back : List Json}
    (hstop : (declareAll place [] (front ++ .obj fields :: back)).stop = none)
    (hsubset : (declareAll place [] (front ++ .obj fields :: back)).declared ⊆ all) :
    Walked all place ((front.map memberName).count (memberName (.obj fields))) fields := by
  rw [declareAll_append, declareAll, List.append_nil, List.count_reverse] at hstop hsubset
  obtain ⟨_, hrest, hlist⟩ := Listing.stop_append_eq_none hstop
  rw [hlist] at hsubset
  obtain ⟨hhere, _, hlist⟩ := Listing.stop_append_eq_none hrest
  rw [hlist] at hsubset
  exact ⟨hhere, fun d hd => hsubset (List.mem_append_right _ (List.mem_append_left _ hd))⟩

/-- A walk that goes through a declaration lists it and goes through its members. -/
lemma Walked.header {copy : Nat} (h : Walked all place copy fields) :
    ∃ d inside, header place copy fields = .ok (d, inside) ∧ d ∈ all ∧
      ∀ next, inside = some next → (declareMembers next fields).stop = none ∧
        (declareMembers next fields).declared ⊆ all := by
  obtain ⟨hstop, hsubset⟩ := h
  unfold declare at hstop hsubset
  cases hheader : Document.header place copy fields with
  | error error =>
    rw [hheader] at hstop
    cases hstop
  | ok head =>
    obtain ⟨d, inside⟩ := head
    rw [hheader] at hstop hsubset
    cases inside with
    | none => exact ⟨d, none, rfl, hsubset List.mem_cons_self, by simp⟩
    | some next =>
      obtain ⟨_, hmembers, hlist⟩ := Listing.stop_append_eq_none hstop
      rw [hlist] at hsubset
      refine ⟨d, some next, rfl, hsubset List.mem_cons_self, ?_⟩
      rintro _ ⟨rfl⟩
      exact ⟨hmembers, fun d hd => hsubset (List.mem_cons_of_mem _ hd)⟩

end

/-- **The scope at a declaration** has the parameters of the declarations around it.

**Proof sketch.** By induction on where the declaration stands: the place of the members of a
declaration has the scope of the declaration with the parameters that enter in front of it. -/
theorem Stands.walked {document : List (String × Json)} {declarations : List Json}
    (hdeclarations : Json.listField document "declarations" = .ok declarations)
    (hstop : (declareAll .top [] declarations).stop = none)
    {around : List (List (String × Json))} {id : SymId} {fields : List (String × Json)}
    (h : Stands document around id fields) :
    ∃ place copy, Walked (declareAll .top [] declarations).declared place copy fields ∧
      id = place.member (memberName (.obj fields)) copy ∧
      place.scope = scopeOf (around.map declaredParams) ∧
      place.surroundings.params = ((around.map declaredParams).map List.length).sum := by
  induction h with
  | top hfields =>
    obtain rfl := Except.ok.inj (hdeclarations.symm.trans hfields)
    exact ⟨.top, _, walked_of_declareAll hstop (List.Subset.refl _), rfl, rfl, rfl⟩
  | inside _ houter hmembers ih =>
    obtain ⟨place, copy, hwalked, rfl, hscope, hparams⟩ := ih
    obtain ⟨d, inside, hheader, _, hinside⟩ := hwalked.header
    obtain ⟨next, rfl, hid, hnext, hcount⟩ := inside_of_hasMembers hheader houter
    obtain ⟨hstop, hsubset⟩ := hinside next rfl
    rw [declareMembers_eq hmembers] at hstop hsubset
    rw [← (heads_of_header hheader).id_eq, ← hid]
    refine ⟨next, _, walked_of_declareAll hstop hsubset, rfl, ?_, ?_⟩
    · rw [hnext, hscope, hparams]
      rfl
    · rw [hcount, hparams]
      rfl

/-! ## Signatures in a document -/

/-- **What a name denotes in a signature.**  A name that is written as a type, at any depth, in the
parameters, the result or the explicit slot of a method or property of an accepted document denotes
the member's own type parameter of that name, the last one if there are several; otherwise the last
one of that name of the nearest aggregate around the member that has one, numbered behind the
parameters of the aggregates around that one; otherwise the aggregate under that key of the final
registry, without arguments and inside the enclosing aggregate over its own parameters if it is
nested.  A document in which the name denotes nothing is rejected.

**Proof sketch.** The declaration that the name stands in was walked over at a place with the scope
of the aggregates around it, and its signature was filled in there.  What is written at the place
of the name has been resolved by itself and is found at the same place in the signature, by
`resolve_at`; and names are resolved to what they denote.  If the name denotes nothing over the
declared graph, no document can have been accepted, since filling in signatures changes nothing
that names refer to. -/
theorem name_denotes {document : List (String × Json)} {around : List (List (String × Json))}
    {id : SymId} {fields : List (String × Json)} (hstands : Stands document around id fields)
    (hkind : Json.fieldD fields "kind" .null = .str "method" ∨
      Json.fieldD fields "kind" .null = .str "property")
    {part : SignaturePart} {path : List TypeStep} {name : String}
    (hname : (part.written? fields).bind (typeAt? · path) = some (.str name)) :
    (∀ doc, ofJson (.obj document) = .ok doc →
      ∃ s t, doc.graph.find? id = some s ∧ (s.part? part).bind (·.at? path) = some t ∧
        Denotes doc.graph doc.registry (declaredParams fields) (around.map declaredParams) name
          t) ∧
      ((∀ registry t, registerAll [] (listed (.obj document)) = .ok registry →
          ¬ Denotes (declaredGraph (listed (.obj document))) registry (declaredParams fields)
            (around.map declaredParams) name t) →
        ∃ e, ofJson (.obj document) = .error e) := by
  have haccepted : ∀ doc, ofJson (.obj document) = .ok doc →
      ∃ s t, doc.graph.find? id = some s ∧ (s.part? part).bind (·.at? path) = some t ∧
        Denotes doc.graph doc.registry (declaredParams fields) (around.map declaredParams) name
          t := by
    intro doc hdoc
    obtain ⟨declarations, signed, items, h⟩ := ofJson_obj_eq_ok.1 hdoc
    obtain ⟨place, copy, hwalked, rfl, hscope, _⟩ := hstands.walked h.declarations_eq h.stop
    obtain ⟨d, inside, hheader, hd, _⟩ := hwalked.header
    obtain ⟨hpending, hdetail⟩ := pending_of_signed hheader hkind
    -- the declaration with its signature
    obtain ⟨s, hs, hsigned⟩ := signed_of_mem h.signed_eq hd
    have hfind : doc.graph.find? d.id = some s := by
      rw [h.holds.find?_eq_some, h.graph_eq]
      exact List.mem_cons_of_mem _ (List.mem_flatMap.2 ⟨_, hsigned, List.mem_cons_self⟩)
    -- the name within the signature
    obtain ⟨json, hjson, hwritten⟩ := Option.bind_eq_some_iff.1 hname
    obtain ⟨t, ht, hresolved⟩ := resolveSignature_part hpending hs hdetail hjson
    obtain ⟨u, hu, hresolved⟩ := resolve_at hresolved hwritten
    rw [resolve, hscope, resolveName_eq_ok] at hresolved
    refine ⟨s, u, (heads_of_header hheader).id_eq ▸ hfind, ?_, h.holds.denotes_iff.2 hresolved⟩
    rw [ht, Option.bind_some, hu]
  refine ⟨haccepted, fun hnone => ?_⟩
  cases hdoc : ofJson (.obj document) with
  | error e => exact ⟨e, rfl⟩
  | ok doc =>
    obtain ⟨_, t, _, _, hdenotes⟩ := haccepted doc hdoc
    obtain ⟨declarations, signed, items, h⟩ := ofJson_obj_eq_ok.1 hdoc
    rw [h.listed_eq] at hnone
    exact absurd (h.holds.denotes_iff.1 hdenotes) (hnone _ t h.registry_eq)

/-- A method with a parameter of its own in a class in a class: of two parameters `T` of the inner
class the second one is meant and not that of the outer class, and a class that is declared later is
found.  The key of a namespace denotes nothing. -/
theorem name_denotes_nested :
    let method : List (String × Json) := [("kind", .str "method"), ("name", .str "M"),
      ("type_params", .arr [.str "V"]),
      ("params", .arr [.obj [("ref", .obj [("array", .str "T")])], .str "U", .str "V"]),
      ("returns", .obj [("type", .str "Outer.Late"), ("outer", .str "Outer"),
        ("args", .arr [.str "Outer.Late"])])]
    let inner : List (String × Json) := [("kind", .str "class"), ("name", .str "Inner"),
      ("type_params", .arr [.str "T", .str "T"]), ("members", .arr [.obj method])]
    let late : Json := .obj [("kind", .str "class"), ("name", .str "Late")]
    let outer : List (String × Json) := [("kind", .str "class"), ("name", .str "Outer"),
      ("type_params", .arr [.str "T", .str "U"]), ("members", .arr [.obj inner, late])]
    let document : List (String × Json) := [("declarations", .arr [.obj outer])]
    let id := ((SymId.root.child (.member "Outer" 0)).child (.member "Inner" 0)).child
      (.member "M" 0)
    let lateId := (SymId.root.child (.member "Outer" 0)).child (.member "Late" 0)
    let t : Ty := .param (.number 3) false (some "T")
    let u : Ty := .param (.number 1) false (some "U")
    let v : Ty := .param (.number 0) true (some "V")
    let enclosing : Option Inst := some (.mk (SymId.root.child (.member "Outer" 0))
      [.param (.number 0) false (some "T"), u] none)
    let property : List (String × Json) := [("kind", .str "property"), ("name", .str "P"),
      ("params", .arr [.str "N"])]
    let holder : List (String × Json) := [("kind", .str "class"), ("name", .str "C"),
      ("members", .arr [.obj property])]
    let rejected : List (String × Json) := [("declarations", .arr [
      .obj [("kind", .str "namespace"), ("name", .str "N")], .obj holder])]
    ∃ doc s, ofJson (.obj document) = .ok doc ∧ doc.graph.find? id = some s ∧
      (s.part? (.parameter 0)).bind (·.at? [.inside, .inside]) = some t ∧
      (s.part? (.parameter 1)).bind (·.at? []) = some u ∧
      (s.part? (.parameter 2)).bind (·.at? []) = some v ∧
      (s.part? .result).bind (·.at? [.argument 0]) =
        some (.aggregate (.mk lateId [] enclosing)) ∧
      Denotes doc.graph doc.registry ["V"] [["T", "T"], ["T", "U"]] "T" t ∧
      Denotes doc.graph doc.registry ["V"] [["T", "T"], ["T", "U"]] "U" u ∧
      Denotes doc.graph doc.registry ["V"] [["T", "T"], ["T", "U"]] "V" v ∧
      Denotes doc.graph doc.registry ["V"] [["T", "T"], ["T", "U"]] "Outer.Late"
        (.aggregate (.mk lateId [] enclosing)) ∧
      ∃ e, ofJson (.obj rejected) = .error e := by
  intro method inner late outer document id lateId t u v enclosing property holder rejected
  obtain ⟨doc, s, hdoc, hs, ht, hu, hv, hlate⟩ :
      ∃ doc s, ofJson (.obj document) = .ok doc ∧ doc.graph.find? id = some s ∧
        (s.part? (.parameter 0)).bind (·.at? [.inside, .inside]) = some t ∧
        (s.part? (.parameter 1)).bind (·.at? []) = some u ∧
        (s.part? (.parameter 2)).bind (·.at? []) = some v ∧
        (s.part? .result).bind (·.at? [.argument 0]) =
          some (.aggregate (.mk lateId [] enclosing)) := by
    refine ⟨?doc, ?s, ?hdoc, ?hs, ?ht, ?hu, ?hv, ?hlate⟩
    case hdoc => cbv; rfl
    case hs => cbv; rfl
    all_goals rfl
  have houter : Stands document [] (SymId.root.child (memberStep [] outer)) outer :=
    .top (show Json.listField document "declarations" = .ok ([] ++ .obj outer :: []) from rfl)
  have hinner := houter.inside ⟨"class", rfl, .inr ⟨_, rfl⟩⟩
    (show Table.get? outer "members" = some (.arr ([] ++ .obj inner :: [late])) from rfl)
  have hmethod : Stands document [inner, outer] id method :=
    hinner.inside ⟨"class", rfl, .inr ⟨_, rfl⟩⟩
      (show Table.get? inner "members" = some (.arr ([] ++ .obj method :: [])) from rfl)
  have hdenotes {part : SignaturePart} {path : List TypeStep} {name : String} {found : Ty}
      (hname : (part.written? method).bind (typeAt? · path) = some (.str name))
      (hfound : (s.part? part).bind (·.at? path) = some found) :
      Denotes doc.graph doc.registry ["V"] [["T", "T"], ["T", "U"]] name found := by
    obtain ⟨s', found', hs', hfound', h⟩ := (name_denotes hmethod (.inl rfl) hname).1 doc hdoc
    obtain rfl := Option.some.inj (hs.symm.trans hs')
    obtain rfl := Option.some.inj (hfound.symm.trans hfound')
    exact h
  refine ⟨doc, s, hdoc, hs, ht, hu, hv, hlate, hdenotes rfl ht, hdenotes rfl hu, hdenotes rfl hv,
    hdenotes rfl hlate, ?_⟩
  have hholder : Stands rejected [] (SymId.root.child (memberStep [_] holder)) holder :=
    .top (show Json.listField rejected "declarations" = .ok ([_] ++ .obj holder :: []) from rfl)
  have hproperty := hholder.inside ⟨"class", rfl, .inr ⟨_, rfl⟩⟩
    (show Table.get? holder "members" = some (.arr ([] ++ .obj property :: [])) from rfl)
  refine (name_denotes hproperty (.inr rfl)
    (show ((SignaturePart.parameter 0).written? property).bind (typeAt? · []) = some (.str "N")
      from rfl)).2 fun registry found hregistry hfound => ?_
  cases hfound with
  | own hi => cases hi.1
  | @enclosing _ names _ _ _ henclosing _ hi =>
    have hnames : names ∈ [holder].map declaredParams := by rw [henclosing]; simp
    obtain rfl := List.mem_singleton.1 hnames
    cases hi.1
  | aggregate _ _ hget hkind =>
    obtain rfl : _ = registry := Except.ok.inj hregistry
    obtain rfl := Option.some.inj hget
    cases hkind

end Document

end DisplayNames
