import DisplayNames.Document.Load
import Mathlib.Data.List.Nodup

/-!
# The declarations of an accepted document

What a walk over declarations that goes through has listed.  Every contribution comes from one
declaration that stands at a place which the walk has reached, so facts about all contributions
follow from the forms that a single one can have, and facts about places from the forms that open a
new one.

The identities of everything listed are pairwise different: two members of one place differ in their
name or in the number of earlier siblings of that name, and what lies below different members lies
below different steps.

## Main definitions

* `DisplayNames.Document.Heads` — the forms that a single contribution can have.
* `DisplayNames.Document.Placed` — the places that a walk reaches.

## Main results

* `DisplayNames.Document.heads_of_header` — every contribution has one of the forms.
* `DisplayNames.Document.located_of_mem` — every contribution stands at a place that is reached.
* `DisplayNames.Document.nodup_ids_declareAll` — the identities are pairwise different.
-/

set_option relaxedAutoImplicit false
set_option autoImplicit false

namespace DisplayNames

/-- A computation in steps goes through if each of its steps does. -/
lemma bind_eq_ok {ε α β : Type} {x : Except ε α} {f : α → Except ε β} {b : β} :
    (x >>= f) = .ok b ↔ ∃ a, x = .ok a ∧ f a = .ok b := by
  cases x <;> simp [bind, Except.bind]

/-- A pure computation goes through with its value. -/
lemma pure_eq_ok {ε α : Type} {a b : α} : (pure a : Except ε α) = .ok b ↔ a = b := by
  simp [pure, Except.pure]

/-- A computation with a changed result goes through with the changed one. -/
lemma map_eq_ok {ε α β : Type} {x : Except ε α} {f : α → β} {b : β} :
    x.map f = .ok b ↔ ∃ a, x = .ok a ∧ f a = b := by
  cases x <;> simp [Except.map]

/-- A computation that is broken off does not go through. -/
lemma throw_ne_ok {ε α : Type} {e : ε} {a : α} : (throw e : Except ε α) ≠ .ok a := by
  simp [throw, throwThe, MonadExceptOf.throw]

namespace Document

/-! ## The forms of a contribution -/

/-- The number of type parameters of all aggregates around a place. -/
def Surroundings.params : Surroundings → Nat
  | .space => 0
  | .aggregate params => params

/-- The identity of a member at a place, behind `copy` siblings of the same name. -/
def Place.member (place : Place) (name : String) (copy : Nat) : SymId :=
  place.id.child (.member name copy)

/-- What a single declaration at a place contributes, with the place that it opens, if it opens
one.  Signatures are left open. -/
inductive Heads (place : Place) (copy : Nat) (fields : List (String × Json)) :
    Declared → Option Place → Prop
  | space {name : String} {explicitId : Option String} :
    memberName (.obj fields) = name → explicitId? fields = .ok explicitId →
      place.surroundings = .space →
      Heads place copy fields
        ⟨place.member name copy, ⟨some name, some place.id, .space⟩, joinPath place.path name,
          explicitId, [], none⟩
        (some { place with id := place.member name copy, path := joinPath place.path name })
  | aggregate {name : String} {explicitId : Option String} (kind : AggregateKind)
    (names : List String) (broken : Bool) :
    memberName (.obj fields) = name → explicitId? fields = .ok explicitId →
      Heads place copy fields
        ⟨place.member name copy,
          ⟨some name, some place.id,
            .aggregate ⟨kind, typeParams place.surroundings.params false (names.map some), broken⟩⟩,
          joinPath place.path name, explicitId,
          typeParameterSymbols (place.member name copy) (joinPath place.path name)
            place.surroundings.params names, none⟩
        (some ⟨place.member name copy, .aggregate (place.surroundings.params + names.length),
          joinPath place.path name,
          place.scope.enter names (typeParams place.surroundings.params false (names.map some))⟩)
  | method {name : String} {explicitId : Option String} (m : Method) (names : List String) :
    memberName (.obj fields) = name → explicitId? fields = .ok explicitId →
      place.surroundings ≠ .space → m.typeVars = typeParams 0 true (names.map some) →
      m = { m with params := [], returns := none, impl := {}, property := none, event := none } →
      Heads place copy fields
        ⟨place.member name copy, ⟨some name, some place.id, .method m⟩, joinPath place.path name,
          explicitId, [], some ⟨fields, place.scope.enter names m.typeVars⟩⟩ none
  | property {name : String} {explicitId : Option String} (p : Property)
    (roles : List AccessorRole) :
    memberName (.obj fields) = name → explicitId? fields = .ok explicitId →
      place.surroundings ≠ .space → roles.Sublist [.get, .set] → p.params = [] → p.impl = {} →
      p.getter = (if roles.contains .get then
        some ((place.member name copy).child (.accessor .get)) else none) →
      p.setter = (if roles.contains .set then
        some ((place.member name copy).child (.accessor .set)) else none) →
      Heads place copy fields
        ⟨place.member name copy, ⟨some name, some place.id, .property p⟩,
          joinPath place.path name, explicitId,
          roles.map fun role => accessor role place (place.member name copy)
            (joinPath place.path name) name { property := some (place.member name copy) },
          some ⟨fields, place.scope⟩⟩ none
  | field {name : String} {explicitId : Option String} :
    memberName (.obj fields) = name → explicitId? fields = .ok explicitId →
      place.surroundings ≠ .space →
      Heads place copy fields
        ⟨place.member name copy, ⟨some name, some place.id, .field⟩, joinPath place.path name,
          explicitId, [], none⟩ none
  | event {name : String} {explicitId : Option String} (e : Event) (roles : List AccessorRole) :
    memberName (.obj fields) = name → explicitId? fields = .ok explicitId →
      place.surroundings ≠ .space → roles.Sublist [.add, .remove] →
      e.adder = (if roles.contains .add then
        some ((place.member name copy).child (.accessor .add)) else none) →
      e.remover = (if roles.contains .remove then
        some ((place.member name copy).child (.accessor .remove)) else none) →
      Heads place copy fields
        ⟨place.member name copy, ⟨some name, some place.id, .event e⟩,
          joinPath place.path name, explicitId,
          roles.map fun role => accessor role place (place.member name copy)
            (joinPath place.path name) name { event := some (place.member name copy) },
          none⟩ none

section

variable {place : Place} {copy : Nat} {fields : List (String × Json)} {d : Declared}
  {inside : Option Place}

/-- A name that is present is the name under which the declaration counts. -/
lemma memberName_of_stringField {name : String} (h : Json.stringField fields "name" = .ok name) :
    memberName (.obj fields) = name := by
  unfold Json.stringField at h
  cases hf : Table.get? fields "name" with
  | none => simp [hf] at h
  | some value =>
    cases value <;> simp [hf, Json.asString] at h
    simp [memberName, methodName?, hf, h]

/-- A declared namespace. -/
lemma heads_of_namespaceHeader (h : namespaceHeader place copy fields = .ok (d, inside)) :
    Heads place copy fields d inside := by
  unfold namespaceHeader at h
  split at h
  · simp only [bind_eq_ok, throw_ne_ok, false_and, exists_false] at h
  · rename_i hplace
    simp only [bind_eq_ok, pure_eq_ok, Prod.mk.injEq] at h
    obtain ⟨name, hname, explicitId, hid, rfl, rfl⟩ := h
    exact .space (memberName_of_stringField hname) hid (by simpa using hplace)

/-- A declared aggregate. -/
lemma heads_of_aggregateHeader {kind : AggregateKind}
    (h : aggregateHeader place copy kind fields = .ok (d, inside)) :
    Heads place copy fields d inside := by
  simp only [aggregateHeader, bind_eq_ok, pure_eq_ok, Prod.mk.injEq] at h
  obtain ⟨name, hname, names, _, explicitId, hid, rfl, rfl⟩ := h
  exact .aggregate kind names _ (memberName_of_stringField hname) hid

/-- A method that is declared has a name, texts for the names of its type parameters, and no
signature yet. -/
lemma exists_of_methodHeader (h : methodHeader place copy fields = .ok (d, inside)) :
    ∃ (name : String) (names : List String) (explicitId : Option String) (m : Method),
      methodName? fields = some name ∧ stringsField fields "type_params" = .ok names ∧
      explicitId? fields = .ok explicitId ∧ m.typeVars = typeParams 0 true (names.map some) ∧
      m = { m with params := [], returns := none, impl := {}, property := none, event := none } ∧
      d = ⟨place.member name copy, ⟨some name, some place.id, .method m⟩,
        joinPath place.path name, explicitId, [],
        some ⟨fields, place.scope.enter names m.typeVars⟩⟩ ∧ inside = none := by
  cases hname : methodName? fields with
  | none =>
    simp only [methodHeader, hname] at h
    split at h <;> simp only [bind_eq_ok, throw_ne_ok, and_false, exists_false] at h
  | some name =>
    simp only [methodHeader, hname] at h
    split at h
    case h_5 => simp only [bind_eq_ok, throw_ne_ok, false_and, exists_false] at h
    all_goals
      simp only [bind_eq_ok, pure_eq_ok, Prod.mk.injEq] at h
      obtain ⟨_, _, names, hnames, explicitId, hid, rfl, rfl⟩ := h
      exact ⟨name, names, explicitId, _, rfl, hnames, hid, rfl, rfl, rfl, rfl⟩

/-- A declared method. -/
lemma heads_of_methodHeader (hplace : place.surroundings ≠ .space)
    (h : methodHeader place copy fields = .ok (d, inside)) :
    Heads place copy fields d inside := by
  obtain ⟨name, names, _, m, hname, _, hid, hvars, hm, rfl, rfl⟩ := exists_of_methodHeader h
  exact .method m names (by simp [memberName, hname]) hid hplace hvars hm

/-- A declared property. -/
lemma heads_of_propertyHeader (hplace : place.surroundings ≠ .space)
    (h : propertyHeader place copy fields = .ok (d, inside)) :
    Heads place copy fields d inside := by
  simp only [propertyHeader, bind_eq_ok, pure_eq_ok, Prod.mk.injEq] at h
  obtain ⟨name, hname, explicitId, hid, rfl, rfl⟩ := h
  exact .property _ _ (memberName_of_stringField hname) hid hplace List.filter_sublist rfl rfl rfl
    rfl

/-- A declared field. -/
lemma heads_of_fieldHeader (hplace : place.surroundings ≠ .space)
    (h : fieldHeader place copy fields = .ok (d, inside)) :
    Heads place copy fields d inside := by
  simp only [fieldHeader, bind_eq_ok, pure_eq_ok, Prod.mk.injEq] at h
  obtain ⟨name, hname, explicitId, hid, rfl, rfl⟩ := h
  exact .field (memberName_of_stringField hname) hid hplace

/-- A declared event. -/
lemma heads_of_eventHeader (hplace : place.surroundings ≠ .space)
    (h : eventHeader place copy fields = .ok (d, inside)) :
    Heads place copy fields d inside := by
  simp only [eventHeader, bind_eq_ok, pure_eq_ok, Prod.mk.injEq] at h
  obtain ⟨name, hname, explicitId, hid, rfl, rfl⟩ := h
  refine .event _ _ (memberName_of_stringField hname) hid hplace ?_ rfl rfl
  split <;> simp

/-- **Every contribution has one of the forms.**

**Proof sketch.** The reader branches on the kind, so there is a case for each of them. -/
theorem heads_of_header (h : header place copy fields = .ok (d, inside)) :
    Heads place copy fields d inside := by
  unfold header at h
  split at h
  · rename_i kind _
    split at h
    · exact heads_of_namespaceHeader h
    · cases ha : aggregateKind? kind with
      | some a =>
        rw [ha] at h
        exact heads_of_aggregateHeader h
      | none =>
        cases hm : memberHeader? kind with
        | none => simp [ha, hm] at h
        | some member =>
          simp only [ha, hm] at h
          split at h
          · simp at h
          · rename_i hplace
            unfold memberHeader? at hm
            split at hm
            · cases hm; exact heads_of_methodHeader hplace h
            · cases hm; exact heads_of_propertyHeader hplace h
            · cases hm; exact heads_of_fieldHeader hplace h
            · cases hm; exact heads_of_eventHeader hplace h
            · simp at hm
  · simp at h

end

/-! ## The places of a walk -/

/-- A walk that goes through has gone through both of its parts, and lists what they list. -/
lemma Listing.stop_append_eq_none {a b : Listing} (h : (a ++ b).stop = none) :
    a.stop = none ∧ b.stop = none ∧ (a ++ b).declared = a.declared ++ b.declared := by
  obtain ⟨declared, stop⟩ := a
  cases stop with
  | none => exact ⟨rfl, h, rfl⟩
  | some error => exact absurd h (by simp [HAppend.hAppend, Append.append, append])

/-- A place that a walk with these contributions reaches. -/
inductive Placed (all : List Declared) : Place → Prop
  | top : Placed all .top
  | inside {place : Place} {copy : Nat} {fields : List (String × Json)} {d : Declared}
    {inside : Place} :
    Placed all place → Heads place copy fields d (some inside) → d ∈ all → Placed all inside

/-- The contribution comes from a declaration at a place that the walk reaches. -/
def Located (all : List Declared) (d : Declared) : Prop :=
  ∃ place copy fields inside, Placed all place ∧ Heads place copy fields d inside

/-- Part of a walk goes through: what it lists comes from declarations at places that the whole
walk reaches. -/
def Listing.Locates (all : List Declared) (place : Place) (part : Listing) : Prop :=
  part.stop = none → Placed all place → part.declared ⊆ all → ∀ d ∈ part.declared, Located all d

/-- Every part of a walk lists contributions of declarations at places that the walk reaches.

**Proof sketch.** The recursion of the walk.  A declaration is a contribution at the place itself;
its members are walked over at the place that it opens, which the walk reaches with it.  A walk
that stops lists nothing of interest. -/
lemma locates_walk (all : List Declared) :
    (∀ place copy json, Listing.Locates all place (declare place copy json)) ∧
      (∀ place fields, Listing.Locates all place (declareMembers place fields)) ∧
        ∀ place before declarations,
          Listing.Locates all place (declareAll place before declarations) := by
  apply declare.mutual_induct
  case case1 =>
    intro place copy fields error h hstop
    simp [declare, h, Listing.stopped] at hstop
  case case2 =>
    intro place copy fields d h _ hplace _ d' hd'
    rw [declare, h, List.mem_singleton] at hd'
    exact ⟨place, copy, fields, none, hplace, hd' ▸ heads_of_header h⟩
  case case3 =>
    intro place copy fields d inside h ih hstop hplace hall d' hd'
    rw [declare, h] at hstop hall hd'
    obtain ⟨_, hstop', hlist⟩ := Listing.stop_append_eq_none hstop
    rw [hlist] at hall hd'
    have hhead : Located all d := ⟨place, copy, fields, _, hplace, heads_of_header h⟩
    rcases List.mem_cons.1 hd' with rfl | hd'
    · exact hhead
    · have hinside : Placed all inside :=
        .inside hplace (heads_of_header h) (hall List.mem_cons_self)
      exact ih hstop' hinside (fun x hx => hall (List.mem_cons_of_mem _ hx)) d' hd'
  case case4 =>
    intro json place copy h hstop
    cases json <;> simp [declare, Listing.stopped] at hstop h
  case case5 => exact fun place before _ _ _ d hd => absurd hd (by simp [declareAll, Listing.empty])
  case case6 =>
    intro place before declaration rest ih ihrest hstop hplace hall d hd
    rw [declareAll] at hstop hall hd
    obtain ⟨hstop₁, hstop₂, hlist⟩ := Listing.stop_append_eq_none hstop
    rw [hlist] at hall hd
    rcases List.mem_append.1 hd with hd | hd
    · exact ih hstop₁ hplace (fun x hx => hall (List.mem_append_left _ hx)) d hd
    · exact ihrest hstop₂ hplace (fun x hx => hall (List.mem_append_right _ hx)) d hd
  case case7 => exact fun place _ _ _ d hd => absurd hd (by simp [declareMembers, Listing.empty])
  case case8 =>
    intro place rest members ih
    unfold declareMembers
    rw [if_pos rfl]
    exact ih
  case case9 =>
    intro place value rest h hstop
    cases value <;> simp [declareMembers, Listing.stopped] at hstop h
  case case10 =>
    intro place key value rest hkey ih
    unfold declareMembers
    rw [if_neg hkey]
    exact ih

/-- **Every contribution of a walk that goes through comes from a declaration at a place that the
walk reaches.** -/
theorem located_of_mem {declarations : List Json}
    (h : (declareAll .top [] declarations).stop = none) {d : Declared}
    (hd : d ∈ (declareAll .top [] declarations).declared) :
    Located (declareAll .top [] declarations).declared d :=
  (locates_walk _).2.2 .top [] declarations h .top (fun _ hx => hx) d hd

/-! ## Distinct identities -/

/-- The symbol is the given one or lies below it. -/
def Below (above id : SymId) : Prop := above.steps <:+ id.steps

/-- What lies below two members of one place lies below the same member. -/
lemma Place.member_eq_of_below {place : Place} {name name' : String} {copy copy' : Nat}
    {id : SymId} (h : Below (place.member name copy) id)
    (h' : Below (place.member name' copy') id) : name = name' ∧ copy = copy' := by
  have hlen : (place.member name copy).steps.length = (place.member name' copy').steps.length := rfl
  have heq := (List.suffix_of_suffix_length_le h h' (Nat.le_of_eq hlen)).eq_of_length hlen
  simpa [Place.member, SymId.child] using heq

/-- What lies below a symbol lies below whatever the symbol lies below. -/
lemma Below.trans {a b c : SymId} (h : Below a b) (h' : Below b c) : Below a c :=
  List.IsSuffix.trans h h'

/-- A symbol one step below another lies below it. -/
lemma below_child (id : SymId) (step : Step) : Below id (id.child step) :=
  List.suffix_cons step id.steps

/-- The identities of everything that is listed. -/
def Listing.ids (listing : Listing) : List SymId :=
  (listing.declared.flatMap Declared.symbols).map Prod.fst

/-- The identity of a contribution is that of a member of its place. -/
lemma Heads.id_eq {place : Place} {copy : Nat} {fields : List (String × Json)} {d : Declared}
    {inside : Option Place} (h : Heads place copy fields d inside) :
    d.id = place.member (memberName (.obj fields)) copy := by
  cases h with
  | space hname | aggregate _ _ _ hname | method _ _ hname | property _ _ hname | field hname
    | event _ _ hname => rw [hname]

/-- The path of a contribution is that of a member of its place. -/
lemma Heads.path_eq {place : Place} {copy : Nat} {fields : List (String × Json)} {d : Declared}
    {inside : Option Place} (h : Heads place copy fields d inside) :
    d.path = joinPath place.path (memberName (.obj fields)) := by
  cases h with
  | space hname | aggregate _ _ _ hname | method _ _ hname | property _ _ hname | field hname
    | event _ _ hname => rw [hname]

/-- The place that a contribution opens is below the contribution. -/
lemma Heads.inside_id {place : Place} {copy : Nat} {fields : List (String × Json)} {d : Declared}
    {inside : Place} (h : Heads place copy fields d (some inside)) : inside.id = d.id := by
  cases h <;> rfl

/-- What is generated along with a contribution lies one step below it, each by a step of its own
that is no step to a member. -/
lemma Heads.generated_ids {place : Place} {copy : Nat} {fields : List (String × Json)}
    {d : Declared} {inside : Option Place} (h : Heads place copy fields d inside) :
    ∃ steps : List Step, d.generated.map Generated.id = steps.map d.id.child ∧ steps.Nodup ∧
      ∀ name copy, .member name copy ∉ steps := by
  have hroles {roles all : List AccessorRole} (hsub : roles.Sublist all) (hall : all.Nodup) :
      (roles.map Step.accessor).Nodup :=
    (hsub.nodup hall).map fun _ _ h => Step.accessor.inj h
  cases h with
  | space | method | field => exact ⟨[], rfl, List.nodup_nil, by simp⟩
  | aggregate kind names broken =>
    refine ⟨(List.range names.length).map .typeParameter, ?_, ?_, by simp⟩
    · apply List.ext_getElem <;> simp [typeParameterSymbols]
    · exact List.nodup_range.map fun _ _ h => Step.typeParameter.inj h
  | property p roles _ _ _ hsub =>
    exact ⟨roles.map .accessor, by simp [accessor], hroles hsub (by decide), by simp⟩
  | event e roles _ _ _ hsub =>
    exact ⟨roles.map .accessor, by simp [accessor], hroles hsub (by decide), by simp⟩

/-- The identities of a contribution are pairwise different, and none of them lies below a member of
the place that it opens.

**Proof sketch.** What is generated along with a declaration has ids one step below it, by distinct
steps that are not those of members.  Ids with different steps are different, and an id is only
below another one if it is at least as long. -/
lemma Heads.ids_nodup {place : Place} {copy : Nat} {fields : List (String × Json)} {d : Declared}
    {inside : Option Place} (h : Heads place copy fields d inside) :
    (d.symbols.map Prod.fst).Nodup ∧ (∀ id ∈ d.symbols.map Prod.fst, Below d.id id) ∧
      ∀ id ∈ d.symbols.map Prod.fst, ∀ name copy',
        ¬ Below (d.id.child (.member name copy')) id := by
  obtain ⟨steps, hsteps, hnodup, hmember⟩ := h.generated_ids
  have hids : d.symbols.map Prod.fst = d.id :: steps.map d.id.child := by
    rw [← hsteps]
    simp [Declared.symbols]
  rw [hids]
  refine ⟨?_, ?_, ?_⟩
  · rw [List.nodup_cons]
    refine ⟨fun hmem => ?_, hnodup.map fun _ _ hst => (SymId.child_inj hst).2⟩
    obtain ⟨step, _, hstep⟩ := List.mem_map.1 hmem
    exact absurd (congrArg SymId.steps hstep) (List.cons_ne_self step d.id.steps)
  · intro id hid
    rcases List.mem_cons.1 hid with rfl | hid
    · exact List.suffix_refl _
    · obtain ⟨step, _, rfl⟩ := List.mem_map.1 hid
      exact below_child d.id step
  · intro id hid name copy' hbelow
    have hlen := hbelow.length_le
    rcases List.mem_cons.1 hid with rfl | hid
    · simp only [SymId.child, List.length_cons] at hlen
      omega
    · obtain ⟨step, hstep, rfl⟩ := List.mem_map.1 hid
      have heq := hbelow.eq_of_length rfl
      have hmem : step = .member name copy' := (List.head_eq_of_cons_eq heq).symm
      exact hmember name copy' (hmem ▸ hstep)

/-- A part of a walk goes through: what it lists has different identities, which satisfy `P`. -/
def Listing.DistinctIn (P : SymId → Prop) (part : Listing) : Prop :=
  part.stop = none → part.ids.Nodup ∧ ∀ id ∈ part.ids, P id

/-- Two parts of a walk list different identities if each of them does and no identity can be in
both. -/
lemma Listing.DistinctIn.append {P Q : SymId → Prop} {a b : Listing} (ha : a.DistinctIn P)
    (hb : b.DistinctIn Q) (hdisjoint : ∀ id, P id → ¬ Q id) :
    (a ++ b).DistinctIn fun id => P id ∨ Q id := by
  intro hstop
  obtain ⟨hstop₁, hstop₂, hlist⟩ := Listing.stop_append_eq_none hstop
  obtain ⟨hnodup₁, hP⟩ := ha hstop₁
  obtain ⟨hnodup₂, hQ⟩ := hb hstop₂
  have hids : (a ++ b).ids = a.ids ++ b.ids := by simp [Listing.ids, hlist]
  rw [hids]
  refine ⟨List.nodup_append.2 ⟨hnodup₁, hnodup₂, fun x hx y hy hxy => ?_⟩, fun id hid => ?_⟩
  · exact hdisjoint x (hP x hx) (hxy ▸ hQ y hy)
  · exact (List.mem_append.1 hid).imp (hP id) (hQ id)

/-- A weaker condition on identities. -/
lemma Listing.DistinctIn.imp {P Q : SymId → Prop} {part : Listing} (h : part.DistinctIn P)
    (hPQ : ∀ id, P id → Q id) : part.DistinctIn Q :=
  fun hstop => ⟨(h hstop).1, fun id hid => hPQ id ((h hstop).2 id hid)⟩

/-- A contribution lists different identities below its own, none of them below a member. -/
lemma Heads.distinctIn {place : Place} {copy : Nat} {fields : List (String × Json)} {d : Declared}
    {inside : Option Place} (h : Heads place copy fields d inside) :
    Listing.DistinctIn
      (fun id => Below d.id id ∧ ∀ name copy', ¬ Below (d.id.child (.member name copy')) id)
      ⟨[d], none⟩ := by
  intro _
  obtain ⟨hnodup, hbelow, hmember⟩ := h.ids_nodup
  have hids : Listing.ids ⟨[d], none⟩ = d.symbols.map Prod.fst := by simp [Listing.ids]
  rw [hids]
  exact ⟨hnodup, fun id hid => ⟨hbelow id hid, hmember id hid⟩⟩

/-- A contribution and its members list different identities below its own. -/
lemma Heads.distinctIn_append {place : Place} {copy : Nat} {fields : List (String × Json)}
    {d : Declared} {inside : Place} (h : Heads place copy fields d (some inside))
    {members : Listing}
    (hmembers : members.DistinctIn fun id => ∃ name copy, Below (inside.member name copy) id) :
    Listing.DistinctIn (Below d.id) (⟨[d], none⟩ ++ members) := by
  have hinside : inside.id = d.id := h.inside_id
  refine (h.distinctIn.append hmembers ?_).imp ?_
  · rintro id ⟨_, hnone⟩ ⟨name, copy', hid⟩
    exact hnone name copy' (hinside ▸ hid)
  · rintro id (⟨hid, _⟩ | ⟨name, copy', hid⟩)
    · exact hid
    · rw [Place.member, hinside] at hid
      exact (below_child d.id _).trans hid

/-- Every part of a walk lists different identities: a declaration those below its own member, the
members of a place those below members of the place, behind the siblings so far.

**Proof sketch.** The recursion of the walk.  Members of a declaration are below it and not what is
generated along with it; and of two siblings the second one has another name or, as one more of that
name stands in front of it, a larger number. -/
lemma distinctIn_walk :
    (∀ place copy json, (declare place copy json).DistinctIn
        (Below (place.member (memberName json) copy))) ∧
      (∀ place fields, (declareMembers place fields).DistinctIn
        fun id => ∃ name copy, Below (place.member name copy) id) ∧
      ∀ place before declarations, (declareAll place before declarations).DistinctIn
        fun id => ∃ name copy, before.count name ≤ copy ∧ Below (place.member name copy) id := by
  apply declare.mutual_induct
  case case1 =>
    intro place copy fields error h hstop
    simp [declare, h, Listing.stopped] at hstop
  case case2 =>
    intro place copy fields d h
    have hheads := heads_of_header h
    rw [declare, h, ← hheads.id_eq]
    exact hheads.distinctIn.imp fun id hid => hid.1
  case case3 =>
    intro place copy fields d inside h ih
    have hheads := heads_of_header h
    rw [declare, h, ← hheads.id_eq]
    exact hheads.distinctIn_append ih
  case case4 =>
    intro json place copy h hstop
    cases json <;> simp [declare, Listing.stopped] at hstop h
  case case5 =>
    intro place before _
    simp [declareAll, Listing.ids, Listing.empty]
  case case6 =>
    intro place before declaration rest ih ihrest
    rw [declareAll]
    refine (ih.append ihrest ?_).imp ?_
    · rintro id hid ⟨name, copy, hcopy, hid'⟩
      obtain ⟨rfl, rfl⟩ := Place.member_eq_of_below hid hid'
      rw [List.count_cons_self] at hcopy
      omega
    · rintro id (hid | ⟨name, copy, hcopy, hid⟩)
      · exact ⟨_, _, Nat.le_refl _, hid⟩
      · exact ⟨name, copy, Nat.le_trans List.count_le_count_cons hcopy, hid⟩
  case case7 =>
    intro place _
    simp [declareMembers, Listing.ids, Listing.empty]
  case case8 =>
    intro place rest members ih
    unfold declareMembers
    rw [if_pos rfl]
    exact ih.imp fun id ⟨name, copy, _, hid⟩ => ⟨name, copy, hid⟩
  case case9 =>
    intro place value rest h hstop
    cases value <;> simp [declareMembers, Listing.stopped] at hstop h
  case case10 =>
    intro place key value rest hkey ih
    unfold declareMembers
    rw [if_neg hkey]
    exact ih

/-- **The identities of everything that an accepted walk lists are pairwise different, and none of
them is the root.** -/
theorem nodup_ids_declareAll {declarations : List Json}
    (h : (declareAll .top [] declarations).stop = none) :
    (SymId.root :: (declareAll .top [] declarations).ids).Nodup := by
  obtain ⟨hnodup, hbelow⟩ := distinctIn_walk.2.2 .top [] declarations h
  refine List.nodup_cons.2 ⟨fun hroot => ?_, hnodup⟩
  obtain ⟨name, copy, _, hid⟩ := hbelow .root hroot
  exact absurd hid.length_le (by simp [Place.member, SymId.child, SymId.root])

end Document

end DisplayNames
