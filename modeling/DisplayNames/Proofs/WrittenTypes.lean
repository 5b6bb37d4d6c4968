import DisplayNames.Proofs.ParameterOccurrences

/-!
# What is written and what it is resolved to

A type object is resolved to a layer around what the types inside it are resolved to.  So whatever
is written as a type at some place inside a type, or inside the types of a signature, has been
resolved by itself, in the same scope, and what it was resolved to is found at the same place.

## Main definitions

* `DisplayNames.Document.TypeStep` — one step into a type.
* `DisplayNames.Document.typeChild?`, `DisplayNames.Ty.child?` — the step in what is written and in
  a type.
* `DisplayNames.Document.SignaturePart` — the types of a signature, as written and in a symbol.

## Main results

* `DisplayNames.Document.resolve_child` — one step into a type that was resolved.
* `DisplayNames.Document.resolve_at` — any number of steps.
* `DisplayNames.Document.resolveSignature_part` — the types of a signature that was filled in.
-/

set_option relaxedAutoImplicit false
set_option autoImplicit false

namespace DisplayNames

namespace Document

/-! ## Steps into types -/

/-- One step into a type. -/
inductive TypeStep where
  /-- To a type argument. -/
  | argument (position : Nat)
  /-- To the one other type inside: the enclosing instantiation, the parent of an unresolved type,
  or what an array, a pointer, a nullable or a by-reference parameter is made of. -/
  | inside
  deriving DecidableEq, Repr

/-- The form of a type object that has other types inside it.  Nothing is looked for in an
unresolved type without a name. -/
def TypeForm.composite? (fields : List (String × Json)) : Option TypeForm :=
  match TypeForm.of? fields with
  | some .error =>
    match Json.fieldD fields "error" .null with
    | .null => none
    | _ => some .error
  | form => form

/-- What is written as the type one step inside what is written as a type. -/
def typeChild? : Json → TypeStep → Option Json
  | .obj fields, .inside =>
    (TypeForm.composite? fields).bind fun form => form.partKeys.head?.bind (Table.get? fields)
  | .obj fields, .argument i =>
    match (TypeForm.composite? fields).map TypeForm.takesArgs, Table.get? fields "args" with
    | some true, some (.arr items) => items[i]?
    | _, _ => none
  | _, _ => none

/-- What is written as the type some steps inside what is written as a type. -/
def typeAt? (json : Json) (path : List TypeStep) : Option Json := path.foldlM typeChild? json

end Document

/-- The type one step inside a type. -/
def Ty.child? : Ty → Document.TypeStep → Option Ty
  | .aggregate inst, .inside => inst.outer.map .aggregate
  | .aggregate inst, .argument i => inst.args[i]?
  | .array element _ _, .inside => some element
  | .pointer referent, .inside => some referent
  | .nullable underlying, .inside => some underlying
  | .byRef target _, .inside => some target
  | .error parent _ _ _, .inside => parent
  | .error _ _ _ args, .argument i => (args.getD [])[i]?
  | _, _ => none

/-- The type some steps inside a type. -/
def Ty.at? (t : Ty) (path : List Document.TypeStep) : Option Ty := path.foldlM Ty.child? t

namespace Document

variable {names : Names}

/-- What is inside a type object that was put together: the type under the key of its form, if there
is one, and its arguments, if the form takes any.

**Proof sketch.** A case for each form.  A key that the form requires is there, and an optional one
was either found or not. -/
lemma assemble_child {fields : List (String × Json)}
    {child : String → Option (Except DocumentError Ty)} {args : Except DocumentError (List Ty)}
    {t : Ty} (ht : assemble names fields child args = .ok t) {form : TypeForm}
    (hform : TypeForm.composite? fields = some form) :
    (∀ key ∈ form.partKeys.head?, ∀ r, child key = some r →
      ∃ u, r = .ok u ∧ t.child? .inside = some u) ∧
      (form.takesArgs = true → ∃ ts, args = .ok ts ∧ ∀ i, t.child? (.argument i) = ts[i]?) := by
  obtain ⟨form', hof, hassembles⟩ := assembles_of_assemble ht
  unfold TypeForm.composite? at hform
  rw [hof] at hform
  have hfound {key : String} {u : Ty} (hkey : form.partKeys.head? = some key)
      (hu : child key = some (.ok u)) (hinside : t.child? .inside = some u) :
      ∀ key ∈ form.partKeys.head?, ∀ r, child key = some r →
        ∃ u, r = .ok u ∧ t.child? .inside = some u := by
    intro key' hkey' r hr
    obtain rfl : key = key' := Option.some.inj (hkey.symm.trans hkey')
    rw [hu, Option.some.injEq] at hr
    exact ⟨u, hr.symm, hinside⟩
  have habsent {key : String} (hkey : form.partKeys.head? = some key) (hnone : child key = none) :
      ∀ key ∈ form.partKeys.head?, ∀ r, child key = some r →
        ∃ u, r = .ok u ∧ t.child? .inside = some u := by
    intro key' hkey' r hr
    obtain rfl : key = key' := Option.some.inj (hkey.symm.trans hkey')
    rw [hnone] at hr
    cases hr
  cases hassembles with
  | outermost _ hts houter =>
    obtain rfl := Option.some.inj hform
    exact ⟨habsent rfl houter, fun _ => ⟨_, hts, fun _ => rfl⟩⟩
  | inside _ hts houter =>
    obtain rfl := Option.some.inj hform
    exact ⟨hfound rfl houter rfl, fun _ => ⟨_, hts, fun _ => rfl⟩⟩
  | array _ hinner | pointer hinner | nullable hinner | ref hinner | out hinner =>
    obtain rfl := Option.some.inj hform
    exact ⟨hfound rfl hinner rfl, fun htakes => by cases htakes⟩
  | param | special =>
    obtain rfl := Option.some.inj hform
    exact ⟨by simp [TypeForm.partKeys], by simp [TypeForm.takesArgs]⟩
  | unresolved hnull => simp [hnull] at hform
  | errorInType hnamed hts hparent =>
    obtain rfl : TypeForm.error = form := by simpa [hnamed] using hform
    exact ⟨hfound rfl hparent rfl, fun _ => ⟨_, hts, fun _ => rfl⟩⟩
  | errorInSpace hnamed hts hparent _ =>
    obtain rfl : TypeForm.error = form := by simpa [hnamed] using hform
    exact ⟨habsent rfl hparent, fun _ => ⟨_, hts, fun _ => rfl⟩⟩

/-- Every type of a list is resolved by itself. -/
lemma resolveAll_getElem? {scope : Scope} {items : List Json} {ts : List Ty}
    (hts : resolveAll names scope items = .ok ts) {i : Nat} {item : Json}
    (hitem : items[i]? = some item) : ∃ t, ts[i]? = some t ∧ resolve names scope item = .ok t := by
  induction items generalizing ts i with
  | nil => cases hitem
  | cons value rest ih =>
    simp only [resolveAll, bind_eq_ok, pure_eq_ok] at hts
    obtain ⟨t, ht, ts, hts, rfl⟩ := hts
    cases i with
    | zero =>
      obtain rfl := Option.some.inj hitem
      exact ⟨t, rfl, ht⟩
    | succ i => exact ih hts hitem

/-- The arguments of a type object are those in the list under their key. -/
lemma resolveArgs_eq {scope : Scope} {fields : List (String × Json)} {items : List Json}
    (h : Table.get? fields "args" = some (.arr items)) :
    resolveArgs names scope fields = resolveAll names scope items := by
  induction fields with
  | nil => cases h
  | cons field rest ih =>
    obtain ⟨key, value⟩ := field
    rw [Table.get?_cons] at h
    unfold resolveArgs
    split at h
    · rename_i hkey
      obtain rfl : value = .arr items := Option.some.inj h
      rw [if_pos hkey]
    · rename_i hkey
      rw [if_neg hkey, ih h]

/-- **One step into a type that was resolved**: what is written there was resolved by itself, to the
type one step inside.

**Proof sketch.** The step follows the form of the object, which was put together from the types
under its keys and from its arguments; the keys and arguments were resolved by themselves. -/
theorem resolve_child {scope : Scope} {json : Json} {t : Ty} (ht : resolve names scope json = .ok t)
    {step : TypeStep} {inner : Json} (hinner : typeChild? json step = some inner) :
    ∃ u, t.child? step = some u ∧ resolve names scope inner = .ok u := by
  cases json with
  | obj fields =>
    rw [resolve] at ht
    cases step with
    | inside =>
      obtain ⟨form, hform, hinner⟩ := Option.bind_eq_some_iff.1 hinner
      obtain ⟨key, hkey, hinner⟩ := Option.bind_eq_some_iff.1 hinner
      obtain ⟨u, hu, hchild⟩ := (assemble_child ht hform).1 key hkey (resolve names scope inner)
        (by rw [resolveAt_eq, hinner, Option.map_some])
      exact ⟨u, hchild, hu⟩
    | argument i =>
      simp only [typeChild?] at hinner
      split at hinner
      · rename_i items htakes hitems
        obtain ⟨form, hform, htakes⟩ := Option.map_eq_some_iff.1 htakes
        obtain ⟨ts, hts, hchild⟩ := (assemble_child ht hform).2 htakes
        rw [resolveArgs_eq hitems] at hts
        obtain ⟨u, hu, hresolved⟩ := resolveAll_getElem? hts hinner
        exact ⟨u, (hchild i).trans hu, hresolved⟩
      · cases hinner
  | _ => cases step <;> cases hinner

/-- **Any number of steps into a type that was resolved.** -/
theorem resolve_at {scope : Scope} {json : Json} {t : Ty} (ht : resolve names scope json = .ok t)
    {path : List TypeStep} {inner : Json} (hinner : typeAt? json path = some inner) :
    ∃ u, t.at? path = some u ∧ resolve names scope inner = .ok u := by
  induction path generalizing json t with
  | nil =>
    obtain rfl : json = inner := Option.some.inj hinner
    exact ⟨t, rfl, ht⟩
  | cons step path ih =>
    obtain ⟨next, hnext, hinner⟩ := Option.bind_eq_some_iff.1 hinner
    obtain ⟨u, hu, hresolved⟩ := resolve_child ht hnext
    obtain ⟨v, hv, hlast⟩ := ih hresolved hinner
    refine ⟨v, ?_, hlast⟩
    rw [Ty.at?, List.foldlM_cons, hu]
    exact hv

/-! ## Signatures -/

/-- The types of a signature. -/
inductive SignaturePart where
  | parameter (position : Nat)
  | result
  /-- The interface of the member that is implemented explicitly. -/
  | slot
  deriving DecidableEq, Repr

/-- What a member that is declared with those fields writes as a type of its signature.  Only
methods have a result. -/
def SignaturePart.written? (fields : List (String × Json)) : SignaturePart → Option Json
  | .parameter i => (Json.listField fields "params").toOption.bind (·[i]?)
  | .result => if Json.fieldD fields "kind" .null matches .str "method" then
      Table.get? fields "returns" else none
  | .slot =>
    match Json.fieldD fields "explicit_impl" .null with
    | .obj impl => some (Json.fieldD impl "type" .null)
    | _ => none

end Document

/-- A type of the signature of a member. -/
def Symbol.part? (s : Symbol) : Document.SignaturePart → Option Ty
  | .parameter i =>
    match s.detail with
    | .method m => m.params[i]?
    | .property p => p.params[i]?
    | _ => none
  | .result =>
    match s.detail with
    | .method m => m.returns
    | _ => none
  | .slot => (s.impl?.bind ExplicitImpl.target?).bind fun target => target.2.map .aggregate

namespace Document

variable {names : Names}

/-- What is written as a parameter of a signature was resolved to the parameter. -/
lemma resolveList_getElem? {scope : Scope} {fields : List (String × Json)} {key : String}
    {ts : List Ty} (hts : resolveList names scope fields key = .ok ts) {i : Nat} {item : Json}
    (hitem : (Json.listField fields key).toOption.bind (·[i]?) = some item) :
    ∃ t, ts[i]? = some t ∧ resolve names scope item = .ok t := by
  simp only [resolveList, bind_eq_ok] at hts
  obtain ⟨items, hitems, hts⟩ := hts
  rw [hitems] at hitem
  exact resolveAll_getElem? hts hitem

/-- The interface of an explicit implementation was resolved to that of the slot. -/
lemma resolveImpl_slot {pending : Pending} {impl : ExplicitImpl}
    (himpl : resolveImpl names pending = .ok impl) {json : Json}
    (hjson : SignaturePart.slot.written? pending.fields = some json) :
    ∃ t, (impl.target?.bind fun target => target.2.map .aggregate) = some t ∧
      resolve names pending.scope json = .ok t := by
  unfold resolveImpl at himpl
  unfold SignaturePart.written? at hjson
  split at himpl
  · rename_i slot hslot
    simp only [hslot, Option.some.injEq] at hjson
    subst hjson
    simp only [bind_eq_ok, pure_eq_ok] at himpl
    obtain ⟨t, ht, on, hon, _, _, member, _, rfl⟩ := himpl
    exact ⟨t, by rw [asInst_eq_ok hon]; rfl, ht⟩
  · rename_i hnull
    simp [hnull] at hjson
  · cases himpl

/-- **The types of a signature that was filled in** are what the written ones are resolved to in the
scope of the signature.

**Proof sketch.** A signature is resolved part by part, and each part of the result is what its own
step came to. -/
theorem resolveSignature_part {d : Declared} {pending : Pending}
    (hpending : d.pending = some pending) {s : Symbol} (hs : resolveSignature names d = .ok s)
    (hkind : (∃ m, d.symbol.detail = .method m) ∨
      (∃ p, d.symbol.detail = .property p) ∧
        Json.fieldD pending.fields "kind" .null = .str "property")
    {part : SignaturePart} {json : Json} (hjson : part.written? pending.fields = some json) :
    ∃ t, s.part? part = some t ∧ resolve names pending.scope json = .ok t := by
  rcases hkind with ⟨m, hd⟩ | ⟨⟨p, hd⟩, hproperty⟩
  · simp only [resolveSignature, hpending, hd, bind_eq_ok, pure_eq_ok] at hs
    obtain ⟨params, hparams, returns, hreturns, impl, himpl, rfl⟩ := hs
    cases part with
    | parameter i => exact resolveList_getElem? hparams hjson
    | result =>
      rw [SignaturePart.written?, Option.ite_none_right_eq_some] at hjson
      rw [resolveResult, hjson.2] at hreturns
      obtain ⟨t, ht, rfl⟩ := map_eq_ok.1 hreturns
      exact ⟨t, rfl, ht⟩
    | slot => exact resolveImpl_slot himpl hjson
  · simp only [resolveSignature, hpending, hd, bind_eq_ok, pure_eq_ok] at hs
    obtain ⟨params, hparams, impl, himpl, rfl⟩ := hs
    cases part with
    | parameter i => exact resolveList_getElem? hparams hjson
    | result => simp [SignaturePart.written?, hproperty] at hjson
    | slot => exact resolveImpl_slot himpl hjson

end Document

end DisplayNames
