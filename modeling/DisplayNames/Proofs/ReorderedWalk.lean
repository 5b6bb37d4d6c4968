import DisplayNames.Proofs.NamesExtension

/-!
# Walks over reordered declarations

Declarations may be listed in another order, at the top and among the members of any declaration.
If no two of them share a key, siblings have different names, so that the order decides nothing: the
walk lists the same declarations, in another order.  Only the fields that are kept for later differ,
and only in the members, which nothing reads later.

## Main definitions

* `DisplayNames.Document.Reordered` — the declarations in another order.
* `DisplayNames.Document.Declared.trimmed` — a contribution without the members among its fields.
* `DisplayNames.Document.Declared.keys` — the keys of a contribution.
* `DisplayNames.Document.Listing.Rearranged` — what walks over reordered declarations list.

## Main results

* `DisplayNames.Document.Reordered.of_perm` — every permutation is another order.
* `DisplayNames.Document.header_of_trim` — members do not influence their own declaration.
* `DisplayNames.Document.Reordered.rearranged` — walks over reordered declarations.
-/

set_option relaxedAutoImplicit false
set_option autoImplicit false

namespace DisplayNames

namespace Document

/-- The second list has the declarations of the first one in another order, at the top or among the
members of some declaration at any depth. -/
inductive Reordered : List Json → List Json → Prop
  | nil : Reordered [] []
  | cons (declaration : Json) {rest rest' : List Json} :
    Reordered rest rest' → Reordered (declaration :: rest) (declaration :: rest')
  | swap (first second : Json) (rest : List Json) :
    Reordered (first :: second :: rest) (second :: first :: rest)
  | members {fields : List (String × Json)} {members members' : List Json} (rest : List Json) :
    Table.get? fields "members" = some (.arr members) → Reordered members members' →
      Reordered (.obj fields :: rest)
        (.obj (Table.insert fields "members" (.arr members')) :: rest)
  | trans {first second third : List Json} :
    Reordered first second → Reordered second third → Reordered first third

/-- Every permutation of declarations is such an order. -/
theorem Reordered.of_perm {declarations declarations' : List Json}
    (h : declarations.Perm declarations') : Reordered declarations declarations' := by
  induction h with
  | nil => exact .nil
  | cons declaration _ ih => exact .cons declaration ih
  | swap second first rest => exact .swap first second rest
  | trans _ _ ih ih' => exact .trans ih ih'

/-! ## Fields without members -/

/-- The fields of a declaration without its members. -/
def trim (fields : List (String × Json)) : List (String × Json) :=
  fields.filter fun field => field.1 ≠ "members"

/-- Every other field is found among the trimmed ones. -/
lemma get?_trim {key : String} (hkey : key ≠ "members") (fields : List (String × Json)) :
    Table.get? (trim fields) key = Table.get? fields key := by
  unfold trim
  induction fields with
  | nil => rfl
  | cons field rest ih =>
    obtain ⟨k, value⟩ := field
    by_cases hk : k = "members"
    · have hne : k ≠ key := fun h => hkey (h ▸ hk)
      rw [List.filter_cons_of_neg (by simpa using hk), ih, Table.get?_cons, if_neg hne]
    · rw [List.filter_cons_of_pos (by simpa using hk), Table.get?_cons, Table.get?_cons, ih]

/-- Other members leave the trimmed fields as they are. -/
lemma trim_insert (fields : List (String × Json)) (value : Json) :
    trim (Table.insert fields "members" value) = trim fields := by
  unfold trim
  induction fields with
  | nil => rfl
  | cons field rest ih =>
    obtain ⟨k, old⟩ := field
    by_cases hk : k = "members"
    · subst hk
      rw [Table.insert, if_pos rfl]
      rfl
    · rw [Table.insert, if_neg hk, List.filter_cons_of_pos (by simpa using hk), ih,
        List.filter_cons_of_pos (by simpa using hk)]

/-- The contribution without the members among the fields that are kept for later. -/
def Declared.trimmed (d : Declared) : Declared :=
  { d with pending := d.pending.map fun pending => { pending with fields := trim pending.fields } }

/-- A head with a trimmed contribution. -/
def trimHead (head : Declared × Option Place) : Declared × Option Place :=
  (head.1.trimmed, head.2)

section

variable {fields fields' : List (String × Json)} (h : trim fields = trim fields')
include h

/-- Fields that are the same when trimmed differ in the members alone. -/
lemma get?_of_trim {key : String} (hkey : key ≠ "members") :
    Table.get? fields' key = Table.get? fields key := by
  rw [← get?_trim hkey, ← h, get?_trim hkey]

/-- A field with a default is the same. -/
lemma fieldD_of_trim {key : String} (hkey : key ≠ "members") (default : Json) :
    Json.fieldD fields' key default = Json.fieldD fields key default := by
  rw [Json.fieldD, Json.fieldD, get?_of_trim h hkey]

/-- A flag is the same. -/
lemma flag_of_trim {key : String} (hkey : key ≠ "members") (default : Bool) :
    Json.flag fields' key default = Json.flag fields key default := by
  rw [Json.flag, Json.flag, get?_of_trim h hkey]

/-- A list is the same. -/
lemma listField_of_trim {key : String} (hkey : key ≠ "members") :
    Json.listField fields' key = Json.listField fields key := by
  rw [Json.listField, Json.listField, get?_of_trim h hkey]

/-- A text that must be present carries over. -/
lemma stringField_of_trim {key : String} (hkey : key ≠ "members") :
    Carries (Json.stringField fields key) (Json.stringField fields' key) := by
  unfold Json.stringField
  rw [get?_of_trim h hkey]
  split
  · exact .error _ _
  · exact .refl _

/-- The names of type parameters are the same. -/
lemma stringsField_of_trim {key : String} (hkey : key ≠ "members") :
    stringsField fields' key = stringsField fields key := by
  rw [stringsField, stringsField, listField_of_trim h hkey]

/-- The explicit id is the same. -/
lemma explicitId?_of_trim : explicitId? fields' = explicitId? fields := by
  rw [explicitId?, explicitId?, get?_of_trim h (by decide)]

/-- The name of a method is the same. -/
lemma methodName?_of_trim : methodName? fields' = methodName? fields := by
  have hrole : roleName? fields' = roleName? fields := by
    rw [roleName?, roleName?, flag_of_trim h (by decide), flag_of_trim h (by decide),
      get?_of_trim h (by decide)]
  rw [methodName?, methodName?, get?_of_trim h (by decide), hrole]

/-- The name under which a declaration counts among its siblings is the same. -/
lemma memberName_of_trim : memberName (.obj fields') = memberName (.obj fields) := by
  rw [memberName, memberName, methodName?_of_trim h]

/-! ## Heads -/

variable (place : Place) (copy : Nat)

/-- The head of a namespace carries over. -/
lemma namespaceHeader_of_trim :
    Carries ((namespaceHeader place copy fields).map trimHead)
      ((namespaceHeader place copy fields').map trimHead) := by
  unfold namespaceHeader
  rw [explicitId?_of_trim h]
  split
  · exact .map_bind (.throw _ _) fun _ hthrow => absurd hthrow throw_ne_ok
  · exact .map_bind (stringField_of_trim h (by decide)) fun name _ =>
      .map_bind (.refl _) fun explicitId _ => .refl _

/-- The head of an aggregate carries over. -/
lemma aggregateHeader_of_trim (kind : AggregateKind) :
    Carries ((aggregateHeader place copy kind fields).map trimHead)
      ((aggregateHeader place copy kind fields').map trimHead) := by
  unfold aggregateHeader
  rw [explicitId?_of_trim h, stringsField_of_trim h (by decide), flag_of_trim h (by decide)]
  exact .map_bind (stringField_of_trim h (by decide)) fun name _ => .refl _

/-- The head of a method carries over. -/
lemma methodHeader_of_trim :
    Carries ((methodHeader place copy fields).map trimHead)
      ((methodHeader place copy fields').map trimHead) := by
  have hleaf {id : SymId} {symbol : Symbol} {path : String} {explicitId : Option String}
      {scope : Scope} :
      trimHead (⟨id, symbol, path, explicitId, [], some ⟨fields, scope⟩⟩, none) =
        trimHead (⟨id, symbol, path, explicitId, [], some ⟨fields', scope⟩⟩, none) := by
    simp only [trimHead, Declared.trimmed, Option.map_some, h]
  unfold methodHeader
  simp (disch := decide) only [get?_of_trim h, flag_of_trim h, stringsField_of_trim h,
    explicitId?_of_trim h, methodName?_of_trim h]
  split
  case h_5 => exact .map_bind (.throw _ _) fun _ hthrow => absurd hthrow throw_ne_ok
  all_goals
    refine .map_bind (.refl _) fun conversion _ => ?_
    split
    · exact .map_bind (.refl _) fun names _ => .map_bind (.refl _) fun explicitId _ =>
        .map_pure hleaf
    · intro a ha
      obtain ⟨_, hthrow, _⟩ := map_eq_ok.1 ha
      exact absurd hthrow throw_ne_ok

/-- The head of a property carries over. -/
lemma propertyHeader_of_trim :
    Carries ((propertyHeader place copy fields).map trimHead)
      ((propertyHeader place copy fields').map trimHead) := by
  have hroles : ([AccessorRole.get, .set].filter fun role =>
        Json.flag fields' (if role = .get then "getter" else "setter") false) =
      [AccessorRole.get, .set].filter fun role =>
        Json.flag fields (if role = .get then "getter" else "setter") false := by
    refine List.filter_congr fun role _ => flag_of_trim h ?_ false
    cases role <;> decide
  unfold propertyHeader
  simp (disch := decide) only [flag_of_trim h, explicitId?_of_trim h, hroles]
  refine .map_bind (stringField_of_trim h (by decide)) fun name _ =>
    .map_bind (.refl _) fun explicitId _ => .map_pure ?_
  simp only [trimHead, Declared.trimmed, Option.map_some, h]

/-- The head of a field carries over. -/
lemma fieldHeader_of_trim :
    Carries ((fieldHeader place copy fields).map trimHead)
      ((fieldHeader place copy fields').map trimHead) := by
  unfold fieldHeader
  rw [explicitId?_of_trim h]
  exact .map_bind (stringField_of_trim h (by decide)) fun name _ => .refl _

/-- The head of an event carries over. -/
lemma eventHeader_of_trim :
    Carries ((eventHeader place copy fields).map trimHead)
      ((eventHeader place copy fields').map trimHead) := by
  unfold eventHeader
  rw [explicitId?_of_trim h, flag_of_trim h (by decide)]
  exact .map_bind (stringField_of_trim h (by decide)) fun name _ => .refl _

/-- **Members do not influence the head of their declaration.**

**Proof sketch.** The head of a declaration is read from other keys than that of its members.  So
the reader takes the same branches on both sides, and in each branch the same head comes out up to
the fields that are kept for the signature. -/
theorem header_of_trim {d : Declared} {inside : Option Place}
    (hd : header place copy fields = .ok (d, inside)) :
    ∃ d', header place copy fields' = .ok (d', inside) ∧ d'.trimmed = d.trimmed := by
  have hcarries : Carries ((header place copy fields).map trimHead)
      ((header place copy fields').map trimHead) := by
    unfold header
    simp (disch := decide) only [fieldD_of_trim h]
    split
    · rename_i kind _
      split
      · exact namespaceHeader_of_trim h place copy
      · cases aggregateKind? kind with
        | some aggregate => exact aggregateHeader_of_trim h place copy aggregate
        | none =>
          cases hmember : memberHeader? kind with
          | none => exact .refl _
          | some member =>
            dsimp only
            split
            · exact .refl _
            · unfold memberHeader? at hmember
              split at hmember
              · cases hmember; exact methodHeader_of_trim h place copy
              · cases hmember; exact propertyHeader_of_trim h place copy
              · cases hmember; exact fieldHeader_of_trim h place copy
              · cases hmember; exact eventHeader_of_trim h place copy
              · cases hmember
    · exact .error _ _
  obtain ⟨⟨d', inside'⟩, hd', heq⟩ :=
    map_eq_ok.1 (hcarries _ (map_eq_ok.2 ⟨(d, inside), hd, rfl⟩))
  obtain ⟨htrimmed, rfl⟩ := Prod.mk.inj heq
  exact ⟨d', hd', htrimmed⟩

end

/-! ## Keys -/

/-- The keys of a contribution: its path, its explicit id and the paths of what comes along. -/
def Declared.keys (d : Declared) : List String :=
  d.path :: (d.explicitId.toList ++ d.generated.map Generated.path)

/-- The keys of everything that is listed. -/
def Listing.keys (listing : Listing) : List String := listing.declared.flatMap Declared.keys

/-- A walk behind one that went through. -/
lemma Listing.append_of_stop {a : Listing} (h : a.stop = none) (b : Listing) :
    a ++ b = ⟨a.declared ++ b.declared, b.stop⟩ := by
  obtain ⟨declared, stop⟩ := a
  cases h
  rfl

/-- The keys of two walks in a row are those of the first and of the second one. -/
lemma Listing.keys_append {a b : Listing} (h : (a ++ b).stop = none) :
    (a ++ b).keys = a.keys ++ b.keys := by
  rw [Listing.keys, (Listing.stop_append_eq_none h).2.2, List.flatMap_append]
  rfl

/-- Walks that list the same in another order have the same keys in another order. -/
lemma Listing.keys_perm {a b : Listing}
    (h : (a.declared.map Declared.trimmed).Perm (b.declared.map Declared.trimmed)) :
    a.keys.Perm b.keys := by
  have hkeys (listing : Listing) :
      listing.keys = (listing.declared.map Declared.trimmed).flatMap Declared.keys := by
    rw [List.flatMap_map]
    rfl
  rw [hkeys, hkeys]
  exact h.flatMap_right _

/-- A declaration has its path as a key. -/
lemma mem_keys_declare {place : Place} {copy : Nat} {json : Json}
    (h : (declare place copy json).stop = none) :
    joinPath place.path (memberName json) ∈ (declare place copy json).keys := by
  cases json with
  | obj fields =>
    have hpath {d : Declared} {inside : Option Place}
        (hheader : header place copy fields = .ok (d, inside)) :
        joinPath place.path (memberName (.obj fields)) ∈ d.keys := by
      rw [← (heads_of_header hheader).path_eq]
      exact List.mem_cons_self
    unfold declare at h ⊢
    split at h
    · cases h
    · rename_i d hheader
      exact List.mem_flatMap.2 ⟨d, List.mem_singleton_self d, hpath hheader⟩
    · rename_i d inside hheader
      rw [Listing.keys_append h]
      refine List.mem_append_left _ (List.mem_flatMap.2 ⟨d, List.mem_singleton_self d, ?_⟩)
      exact hpath hheader
  | _ => cases h

/-- Every one of several declarations has its path as a key. -/
lemma mem_keys_declareAll {place : Place} {before : List String} {declarations : List Json}
    (h : (declareAll place before declarations).stop = none) {name : String}
    (hname : name ∈ declarations.map memberName) :
    joinPath place.path name ∈ (declareAll place before declarations).keys := by
  induction declarations generalizing before with
  | nil => cases hname
  | cons declaration rest ih =>
    rw [declareAll] at h ⊢
    obtain ⟨hhead, hrest, _⟩ := Listing.stop_append_eq_none h
    rw [Listing.keys_append h, List.mem_append]
    rcases List.mem_cons.1 hname with rfl | hname
    · exact .inl (mem_keys_declare hhead)
    · exact .inr (ih hrest hname)

/-- A declaration that shares no key with its later siblings has a name of its own among them. -/
lemma memberName_not_mem {place : Place} {before : List String} {declaration : Json}
    {rest : List Json} (h : (declareAll place before (declaration :: rest)).stop = none)
    (hnodup : (declareAll place before (declaration :: rest)).keys.Nodup) :
    memberName declaration ∉ rest.map memberName := by
  intro hmem
  rw [declareAll] at h hnodup
  obtain ⟨hhead, hrest, _⟩ := Listing.stop_append_eq_none h
  rw [Listing.keys_append h] at hnodup
  exact (List.nodup_append.1 hnodup).2.2 _ (mem_keys_declare hhead) _
    (mem_keys_declareAll hrest hmem) rfl

/-! ## Walks -/

/-- If the first walk goes through and no key occurs twice, then the second walk goes through too
and lists the same in another order. -/
def Listing.Rearranged (a b : Listing) : Prop :=
  a.stop = none → a.keys.Nodup → b.stop = none ∧
    (a.declared.map Declared.trimmed).Perm (b.declared.map Declared.trimmed)

namespace Listing.Rearranged

/-- A walk itself. -/
lemma refl (a : Listing) : a.Rearranged a := fun hstop _ => ⟨hstop, .refl _⟩

/-- A walk that is rearranged twice; the walk in between has the same keys. -/
lemma trans {a b c : Listing} (h : a.Rearranged b) (h' : b.Rearranged c) : a.Rearranged c := by
  intro hstop hnodup
  obtain ⟨hstop', hperm⟩ := h hstop hnodup
  obtain ⟨hstop'', hperm'⟩ := h' hstop' ((Listing.keys_perm hperm).nodup_iff.1 hnodup)
  exact ⟨hstop'', hperm.trans hperm'⟩

/-- A single contribution whose members differ. -/
lemma single {d d' : Declared} (h : d'.trimmed = d.trimmed) :
    Listing.Rearranged ⟨[d], none⟩ ⟨[d'], none⟩ := by
  intro _ _
  refine ⟨rfl, ?_⟩
  rw [List.map_singleton, List.map_singleton, h]

/-- Two walks in a row, each rearranged. -/
lemma append {a a' b b' : Listing} (ha : a.Rearranged a') (hb : b.Rearranged b') :
    (a ++ b).Rearranged (a' ++ b') := by
  intro hstop hnodup
  obtain ⟨hstop₁, hstop₂, hdeclared⟩ := Listing.stop_append_eq_none hstop
  rw [Listing.keys_append hstop] at hnodup
  obtain ⟨hnodup₁, hnodup₂, _⟩ := List.nodup_append.1 hnodup
  obtain ⟨hstop₁', hperm₁⟩ := ha hstop₁ hnodup₁
  obtain ⟨hstop₂', hperm₂⟩ := hb hstop₂ hnodup₂
  rw [hdeclared, append_of_stop hstop₁', List.map_append]
  refine ⟨hstop₂', ?_⟩
  rw [List.map_append]
  exact hperm₁.append hperm₂

/-- Two walks in front of a third one, the other way around. -/
lemma swap (a b c : Listing) : (a ++ (b ++ c)).Rearranged (b ++ (a ++ c)) := by
  intro hstop _
  obtain ⟨ha, hrest, hdeclared⟩ := Listing.stop_append_eq_none hstop
  obtain ⟨hb, hc, hdeclared'⟩ := Listing.stop_append_eq_none hrest
  rw [hdeclared, hdeclared', append_of_stop hb, append_of_stop ha]
  refine ⟨hc, ?_⟩
  exact (List.perm_append_comm_assoc _ _ _).map _

end Listing.Rearranged

/-- What comes before a walk counts only by how often each name occurs in it. -/
lemma declareAll_congr (place : Place) {before before' : List String}
    (h : before.Perm before') (declarations : List Json) :
    declareAll place before declarations = declareAll place before' declarations := by
  induction declarations generalizing before before' with
  | nil => rw [declareAll, declareAll]
  | cons declaration rest ih =>
    rw [declareAll, declareAll, h.count_eq, ih (h.cons _)]

/-- The members of a declaration are walked over as they are. -/
lemma declareMembers_eq {fields : List (String × Json)} {members : List Json}
    (h : Table.get? fields "members" = some (.arr members)) (place : Place) :
    declareMembers place fields = declareAll place [] members := by
  induction fields with
  | nil => cases h
  | cons field rest ih =>
    obtain ⟨key, value⟩ := field
    rw [Table.get?_cons] at h
    unfold declareMembers
    split at h
    · rename_i hkey
      obtain rfl : value = .arr members := Option.some.inj h
      rw [if_pos hkey]
    · rename_i hkey
      rw [if_neg hkey, ih h]

/-- A declaration whose members are walked over in another order. -/
lemma declare_rearranged {fields fields' : List (String × Json)} {members members' : List Json}
    (htrim : trim fields = trim fields')
    (hmembers : Table.get? fields "members" = some (.arr members))
    (hmembers' : Table.get? fields' "members" = some (.arr members'))
    (h : ∀ place, (declareAll place [] members).Rearranged (declareAll place [] members'))
    (place : Place) (copy : Nat) :
    (declare place copy (.obj fields)).Rearranged (declare place copy (.obj fields')) := by
  cases hheader : header place copy fields with
  | error error =>
    intro hstop
    rw [declare, hheader] at hstop
    cases hstop
  | ok head =>
    obtain ⟨d, inside⟩ := head
    obtain ⟨d', hheader', htrimmed⟩ := header_of_trim htrim place copy hheader
    cases inside with
    | none =>
      rw [declare, declare, hheader, hheader']
      exact .single htrimmed
    | some inside =>
      rw [declare, declare, hheader, hheader']
      show (_ ++ declareMembers inside fields).Rearranged (_ ++ declareMembers inside fields')
      rw [declareMembers_eq hmembers, declareMembers_eq hmembers']
      exact (Listing.Rearranged.single htrimmed).append (h inside)

/-- **Walks over reordered declarations list the same in another order**, if no key occurs twice.

**Proof sketch.** Induction on the reordering.  The only step that could matter is to exchange two
siblings.  They have different names, because they do not share a key, so neither counts when the
copies of the other are counted. -/
theorem Reordered.rearranged {declarations declarations' : List Json}
    (h : Reordered declarations declarations') (place : Place) (before : List String) :
    (declareAll place before declarations).Rearranged
      (declareAll place before declarations') := by
  induction h generalizing place before with
  | nil => exact .refl _
  | cons declaration _ ih =>
    rw [declareAll, declareAll]
    exact (Listing.Rearranged.refl _).append (ih place _)
  | swap first second rest =>
    intro hstop hnodup
    have hne : memberName first ≠ memberName second := fun heq =>
      memberName_not_mem hstop hnodup (heq ▸ List.mem_cons_self)
    have hsame : declareAll place (memberName second :: memberName first :: before) rest =
        declareAll place (memberName first :: memberName second :: before) rest :=
      declareAll_congr place (.swap _ _ _) rest
    have hfirst : declareAll place before (first :: second :: rest) =
        declare place (before.count (memberName first)) first ++
          (declare place (before.count (memberName second)) second ++
            declareAll place (memberName second :: memberName first :: before) rest) := by
      rw [declareAll, declareAll, List.count_cons_of_ne hne]
    have hsecond : declareAll place before (second :: first :: rest) =
        declare place (before.count (memberName second)) second ++
          (declare place (before.count (memberName first)) first ++
            declareAll place (memberName first :: memberName second :: before) rest) := by
      rw [declareAll, declareAll, List.count_cons_of_ne hne.symm]
    rw [hfirst, hsame] at hstop hnodup ⊢
    rw [hsecond]
    exact Listing.Rearranged.swap _ _ _ hstop hnodup
  | @members fields members members' rest hmembers _ ih =>
    have htrim := trim_insert fields (.arr members')
    have hmembers' : Table.get? (Table.insert fields "members" (.arr members')) "members" =
        some (.arr members') := by rw [Table.get?_insert, if_pos rfl]
    rw [declareAll, declareAll, memberName_of_trim htrim.symm]
    exact (declare_rearranged htrim.symm hmembers hmembers' (fun place => ih place []) place
      _).append (.refl _)
  | trans _ _ ih ih' => exact (ih place before).trans (ih' place before)

end Document

end DisplayNames
