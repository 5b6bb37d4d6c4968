import DisplayNames.Proofs.AddedDeclarations
import DisplayNames.Proofs.DeclarationOrder

/-!
# Explicit ids and paths

The declarations of a document are looked up by path and by explicit id in one table.  What is
entered under a key first keeps it.  An explicit id is refused if the key is already that of another
symbol, so it denotes its declaration, and no earlier declaration has it as a path.  A path is never
refused: a later declaration whose path is the explicit id of an earlier one does not get it.

## Main results

* `DisplayNames.Document.registerAll_get?` — the first declaration with a key has it.
* `DisplayNames.Document.explicitId_fresh` — an explicit id is no key of an earlier declaration.
* `DisplayNames.Document.explicit_ids` — what explicit ids and paths denote in accepted documents.
-/

set_option relaxedAutoImplicit false
set_option autoImplicit false

namespace DisplayNames

namespace Table

variable {κ α : Type} [DecidableEq κ]

/-- A key is entered behind what is there: it is seen only if it was free. -/
lemma get?_insertIfNew_eq_or (t : Table κ α) (key : κ) (value : α) (other : κ) :
    (t.insertIfNew key value).get? other = (t.get? other).or (get? [(key, value)] other) := by
  rw [get?_insertIfNew, get?_cons, get?_nil]
  by_cases hkey : key = other
  · subst hkey
    cases t.get? key <;> simp
  · simp [hkey]

/-- Something is found under every key of a table. -/
lemma exists_get?_of_mem {t : Table κ α} {key : κ} (h : key ∈ t.map Prod.fst) :
    ∃ value, t.get? key = some value := by
  induction t with
  | nil => cases h
  | cons e rest ih =>
    rw [get?_cons]
    by_cases hkey : e.1 = key
    · exact ⟨e.2, if_pos hkey⟩
    · rw [List.map_cons, List.mem_cons] at h
      obtain ⟨value, hvalue⟩ := ih (h.resolve_left fun heq => hkey heq.symm)
      exact ⟨value, (if_neg hkey).trans hvalue⟩

end Table

namespace Document

/-! ## The first declaration with a key -/

section

variable {registry registry' : Registry}

/-- The paths of what is generated along with a declaration are entered behind what is there. -/
lemma generated_get? (registry : Registry) (generated : List Generated) (key : String) :
    (generated.foldl (fun registry g => registry.insertIfNew g.path g.id) registry).get? key =
      (registry.get? key).or (Table.get? (generated.map fun g => (g.path, g.id)) key) := by
  induction generated generalizing registry with
  | nil => rw [List.foldl_nil, List.map_nil, Table.get?_nil, Option.or_none]
  | cons e rest ih =>
    rw [List.foldl_cons, ih, Table.get?_insertIfNew_eq_or, List.map_cons, Option.or_assoc,
      ← Table.get?_append, List.singleton_append]

/-- An explicit id that is accepted is entered behind what is there, and denotes its symbol.

**Proof sketch.** An explicit id is accepted if its key is free or already denotes the symbol.  In
the first case it is entered; in the second one nothing changes. -/
lemma enterId_get? {key : String} {id : SymId}
    (h : Registry.enterId registry key id = .ok registry') (other : String) :
    registry'.get? other = (registry.get? other).or (Table.get? [(key, id)] other) ∧
      registry'.get? key = some id := by
  unfold Registry.enterId at h
  split at h
  · rename_i hfree
    rw [Except.ok.injEq] at h
    subst h
    rw [Table.get?_insert, Table.get?_insert, if_pos rfl, Table.get?_cons, Table.get?_nil]
    refine ⟨?_, rfl⟩
    by_cases hkey : key = other
    · subst hkey
      rw [if_pos rfl, if_pos rfl, hfree, Option.none_or]
    · rw [if_neg hkey, if_neg hkey, Option.or_none]
  · rename_i holder htaken
    split at h
    · rename_i hsame
      rw [Except.ok.injEq] at h
      subst h hsame
      refine ⟨?_, htaken⟩
      rw [Table.get?_cons, Table.get?_nil]
      by_cases hkey : key = other
      · subst hkey
        rw [htaken, Option.some_or]
      · rw [if_neg hkey, Option.or_none]
    · cases h

variable {d : Declared}

/-- The keys of a declaration are entered behind what is there. -/
lemma register_get? (h : register registry d = .ok registry') (key : String) :
    registry'.get? key = (registry.get? key).or (d.entries.get? key) := by
  have hpath := registry.get?_insertIfNew_eq_or d.path d.id
  unfold register at h
  cases hexplicit : d.explicitId with
  | none =>
    simp only [hexplicit, bind_eq_ok, pure_eq_ok, exists_eq_left'] at h
    rw [← h, generated_get?, hpath, Option.or_assoc, ← Table.get?_append, Declared.entries,
      hexplicit]
    rfl
  | some explicit =>
    simp only [hexplicit, bind_eq_ok, pure_eq_ok] at h
    obtain ⟨entered, hentered, rfl⟩ := h
    rw [generated_get?, (enterId_get? hentered key).1, hpath, Option.or_assoc, Option.or_assoc,
      ← Table.get?_append, ← Table.get?_append, Declared.entries, hexplicit]
    rfl

/-- An accepted declaration is found under its explicit id. -/
lemma register_explicitId (h : register registry d = .ok registry') {key : String}
    (hkey : d.explicitId = some key) : registry'.get? key = some d.id := by
  unfold register at h
  simp only [hkey, bind_eq_ok, pure_eq_ok] at h
  obtain ⟨entered, hentered, rfl⟩ := h
  rw [generated_get?, (enterId_get? hentered key).2, Option.some_or]

/-- **The first declaration with a key has it.** -/
theorem registerAll_get? {all : List Declared} (h : registerAll registry all = .ok registry')
    (key : String) :
    registry'.get? key =
      (registry.get? key).or (Table.get? (all.flatMap Declared.entries) key) := by
  induction all generalizing registry with
  | nil =>
    rw [registerAll, Except.ok.injEq] at h
    rw [← h, List.flatMap_nil, Table.get?_nil, Option.or_none]
  | cons d rest ih =>
    unfold registerAll at h
    split at h
    · cases h
    · rename_i entered hentered
      rw [ih h, register_get? hentered, Option.or_assoc, ← Table.get?_append, List.flatMap_cons]

end

/-! ## Explicit ids -/

/-- The keys of a declaration denote its symbols. -/
lemma Declared.mem_ids_of_entry {d : Declared} {key : String} {id : SymId}
    (h : (key, id) ∈ d.entries) : id ∈ d.symbols.map Prod.fst := by
  simp only [entries, List.cons_append, List.mem_cons, List.mem_append, List.mem_map,
    Prod.mk.injEq] at h
  simp only [symbols, List.map_cons, List.map_map, List.mem_cons, List.mem_map,
    Function.comp_apply]
  rcases h with ⟨_, rfl⟩ | ⟨_, _, _, rfl⟩ | ⟨g, hg, _, rfl⟩
  · exact .inl rfl
  · exact .inl rfl
  · exact .inr ⟨g, hg, rfl⟩

/-- The symbols of an earlier declaration are other ones. -/
lemma ne_of_nodup_ids {front back : List Declared} {d d' : Declared}
    (hids : (((front ++ d :: back).flatMap Declared.symbols).map Prod.fst).Nodup)
    (hd' : d' ∈ front) {id : SymId} (hid : id ∈ d'.symbols.map Prod.fst) : id ≠ d.id := by
  rw [List.flatMap_append, List.map_append] at hids
  refine (List.nodup_append.1 hids).2.2 id ?_ d.id ?_
  · rw [List.map_flatMap]
    exact List.mem_flatMap.2 ⟨d', hd', hid⟩
  · rw [List.flatMap_cons, List.map_append]
    exact List.mem_append_left _ List.mem_cons_self

section

variable {front back : List Declared} {d : Declared} {registry : Registry}
  (h : registerAll [] (front ++ d :: back) = .ok registry)
include h

/-- A declaration is found under its explicit id, whatever is declared behind it. -/
lemma get?_explicitId {key : String} (hkey : d.explicitId = some key) :
    registry.get? key = some d.id := by
  obtain ⟨before, _, hrest⟩ := registerAll_append h
  unfold registerAll at hrest
  split at hrest
  · cases hrest
  · rename_i entered hentered
    exact Registry.Keeps.registerAll hrest key d.id (register_explicitId hentered hkey)

/-- **An explicit id is no key of an earlier declaration.**  The earlier declaration would still
have the key, and it is another one. -/
theorem explicitId_fresh
    (hids : (((front ++ d :: back).flatMap Declared.symbols).map Prod.fst).Nodup) {key : String}
    (hkey : d.explicitId = some key) : key ∉ front.flatMap Declared.keys := by
  intro hmem
  obtain ⟨before, hbefore, hrest⟩ := registerAll_append h
  rw [← map_fst_flatMap_entries] at hmem
  obtain ⟨id, hid⟩ := Table.exists_get?_of_mem hmem
  -- the key denotes the same symbol before and behind the declaration with the explicit id
  have hkept : registry.get? key = some id := by
    refine Registry.Keeps.registerAll hrest key id ?_
    rw [registerAll_get? hbefore, Table.get?_nil, Option.none_or, hid]
  have hsame : id = d.id := Option.some.inj (hkept.symm.trans (get?_explicitId h hkey))
  obtain ⟨d', hd', hentry⟩ := List.mem_flatMap.1 (Table.mem_of_get? hid)
  exact ne_of_nodup_ids hids hd' (Declared.mem_ids_of_entry hentry) hsame

/-- A declaration is found under its path, unless an earlier one has the path as a key. -/
lemma get?_path_of_free (hfree : d.path ∉ front.flatMap Declared.keys) :
    registry.get? d.path = some d.id := by
  rw [← map_fst_flatMap_entries] at hfree
  rw [registerAll_get? h, Table.get?_nil, Option.none_or, List.flatMap_append, Table.get?_append,
    Table.get?_of_not_mem hfree, Option.none_or, List.flatMap_cons, Declared.entries]
  exact if_pos rfl

/-- The first declaration with a path is found under it exactly if the path is neither an explicit
id nor a generated path of an earlier declaration. -/
lemma get?_path (hids : (((front ++ d :: back).flatMap Declared.symbols).map Prod.fst).Nodup)
    (hfirst : ∀ d' ∈ front, d'.path ≠ d.path)
    (hgenerated : ∀ d' ∈ front, ∀ g ∈ d'.generated, g.path ≠ d.path) :
    registry.get? d.path = some d.id ↔ ∀ d' ∈ front, d'.explicitId ≠ some d.path := by
  constructor
  · intro hget d' hd' hexplicit
    obtain ⟨front₁, front₂, rfl⟩ := List.append_of_mem hd'
    rw [List.append_assoc, List.cons_append] at h
    have hsame := Option.some.inj ((get?_explicitId h hexplicit).symm.trans hget)
    exact ne_of_nodup_ids hids hd' List.mem_cons_self hsame
  · intro hexplicit
    refine get?_path_of_free h fun hmem => ?_
    obtain ⟨d', hd', hkey⟩ := List.mem_flatMap.1 hmem
    simp only [Declared.keys, List.mem_cons, List.mem_append, Option.mem_toList,
      List.mem_map] at hkey
    rcases hkey with hpath | hid | ⟨g, hg, hpath⟩
    · exact hfirst d' hd' hpath.symm
    · exact hexplicit d' hd' hid
    · exact hgenerated d' hd' g hg hpath

end

/-- **What explicit ids and paths denote in accepted documents.**  Every explicit id denotes the
declaration that has it, and is not the path of an earlier one.  A path that is not generated
denotes the first declaration that has it exactly if it is not the explicit id of an earlier
declaration.

**Proof sketch.** The registry is built in the order of the list.  An explicit id is only entered
if its key is free or denotes the declaration itself, whose id no other one has; a path is only
entered if it is free.  Nothing that is entered later rebinds a key. -/
theorem explicit_ids {json : Json} {doc : Document} (hdoc : ofJson json = .ok doc)
    {front back : List Declared} {d : Declared} (hlisted : listed json = front ++ d :: back) :
    (∀ key, d.explicitId = some key →
      doc.registry.get? key = some d.id ∧ ∀ d' ∈ front, d'.path ≠ key) ∧
    ((∀ d' ∈ front, d'.path ≠ d.path) →
      (∀ d' ∈ listed json, ∀ g ∈ d'.generated, g.path ≠ d.path) →
        (doc.registry.get? d.path = some d.id ↔ ∀ d' ∈ front, d'.explicitId ≠ some d.path)) := by
  obtain ⟨fields, rfl, declarations, signed, items, h⟩ := stages_of_ofJson hdoc
  have hids := (List.nodup_cons.1 (nodup_ids_declareAll h.stop)).2
  have hregistry := h.registry_eq
  rw [Listing.ids, ← h.listed_eq, hlisted] at hids
  rw [← h.listed_eq, hlisted] at hregistry
  refine ⟨fun key hkey => ⟨get?_explicitId hregistry hkey, fun d' hd' hpath => ?_⟩,
    fun hfirst hgenerated => ?_⟩
  · refine explicitId_fresh hregistry hids hkey (List.mem_flatMap.2 ⟨d', hd', ?_⟩)
    rw [← hpath]
    exact List.mem_cons_self
  · refine get?_path hregistry hids hfirst fun d' hd' => hgenerated d' ?_
    rw [hlisted]
    exact List.mem_append_left _ hd'

/-- Of two overloads the first one has the path, and it is also found under its explicit id. -/
theorem explicit_ids_overload :
    let json : Json := .obj [("declarations", .arr [.obj [("kind", .str "class"),
      ("name", .str "Box"), ("members", .arr [
        .obj [("kind", .str "method"), ("name", .str "Put"), ("id", .str "put")],
        .obj [("kind", .str "method"), ("name", .str "Put")]])]])]
    ∃ doc box put other, ofJson json = .ok doc ∧ listed json = [box] ++ put :: [other] ∧
      put.path = "Box.Put" ∧ other.path = "Box.Put" ∧
      doc.registry.get? "put" = some put.id ∧ doc.registry.get? "Box.Put" = some put.id := by
  intro json
  obtain ⟨doc, box, put, other, hdoc, hlisted, hid, hpath, hother, hfirst, hgenerated, hfree⟩ :
      ∃ doc box put other, ofJson json = .ok doc ∧ listed json = [box] ++ put :: [other] ∧
        put.explicitId = some "put" ∧ put.path = "Box.Put" ∧ other.path = "Box.Put" ∧
        (∀ d ∈ [box], d.path ≠ put.path) ∧
        (∀ d ∈ listed json, ∀ g ∈ d.generated, g.path ≠ put.path) ∧
        ∀ d ∈ [box], d.explicitId ≠ some put.path :=
    ⟨_, _, _, _, rfl, rfl, rfl, rfl, rfl, by decide, by decide, by decide⟩
  obtain ⟨hexplicit, hshared⟩ := explicit_ids hdoc hlisted
  exact ⟨doc, box, put, other, hdoc, hlisted, hpath, hother, (hexplicit "put" hid).1,
    hpath ▸ (hshared hfirst hgenerated).2 hfree⟩

/-- A class with an explicit id that is the path of the class behind it: the document is accepted,
and the path denotes the first class. -/
theorem explicit_id_shadows :
    let json : Json := .obj [("declarations", .arr [
      .obj [("kind", .str "class"), ("name", .str "A"), ("id", .str "B")],
      .obj [("kind", .str "class"), ("name", .str "B")]])]
    ∃ doc a b, ofJson json = .ok doc ∧ listed json = [a, b] ∧ a.id ≠ b.id ∧
      a.explicitId = some b.path ∧ doc.registry.get? b.path = some a.id := by
  intro json
  exact ⟨_, _, _, rfl, rfl, by decide, rfl, rfl⟩

end Document

end DisplayNames
