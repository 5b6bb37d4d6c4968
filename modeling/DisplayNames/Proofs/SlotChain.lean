import DisplayNames.Proofs.LoadedDocument

/-!
# Chains of slots and owners

An explicit implementation is displayed as the member of its slot, and an accessor of a property as
its property.  So the walk from a symbol follows a chain, which either ends in a symbol that is
displayed by itself or goes on forever.  A chain that ends is shorter than the graph, because it
visits no symbol twice.

## Main definitions

* `DisplayNames.Graph.next?` — one link of a chain.
* `DisplayNames.Graph.LeadsIn`, `DisplayNames.Graph.Leads` — the end of a chain.

## Main results

* `DisplayNames.Graph.LeadsIn.unique` — a chain has one length and one end.
* `DisplayNames.Graph.LeadsIn.lt_size` — a chain that ends is shorter than the graph.
-/

set_option relaxedAutoImplicit false
set_option autoImplicit false

namespace DisplayNames

namespace Graph

variable {g : Graph}

/-- The symbol that is displayed in the place of another one: the member of the slot of an explicit
implementation, or the property of an accessor. -/
def next? (g : Graph) (id : SymId) : Option SymId :=
  match (g.find? id).map Symbol.detail with
  | some (.method m) => (m.impl.target?.map Prod.fst).or m.property
  | some (.property p) => p.impl.target?.map Prod.fst
  | _ => none

/-- The chain from a symbol ends after a number of links in another one. -/
inductive LeadsIn (g : Graph) : Nat → SymId → SymId → Prop
  | here {id : SymId} : g.next? id = none → LeadsIn g 0 id id
  | next {links : Nat} {id id' last : SymId} : g.next? id = some id' → LeadsIn g links id' last →
    LeadsIn g (links + 1) id last

/-- The chain from a symbol is finite and ends in another one. -/
def Leads (g : Graph) (id last : SymId) : Prop := ∃ links, g.LeadsIn links id last

/-- A chain has one length and one end. -/
theorem LeadsIn.unique {m n : Nat} {id last last' : SymId} (h : g.LeadsIn m id last)
    (h' : g.LeadsIn n id last') : m = n ∧ last = last' := by
  induction h generalizing n with
  | here hnone =>
    cases h' with
    | here => exact ⟨rfl, rfl⟩
    | next hsome => rw [hnone] at hsome; cases hsome
  | next hsome _ ih =>
    cases h' with
    | here hnone => rw [hnone] at hsome; cases hsome
    | next hsome' h' =>
      rw [hsome, Option.some.injEq] at hsome'
      obtain ⟨rfl, rfl⟩ := ih (hsome' ▸ h')
      exact ⟨rfl, rfl⟩

/-- The links of a method. -/
lemma next?_method {id : SymId} {s : Symbol} {m : Method} (hs : g.find? id = some s)
    (hd : s.detail = .method m) : g.next? id = (m.impl.target?.map Prod.fst).or m.property := by
  rw [next?, hs, Option.map_some, hd]

/-- The links of a property. -/
lemma next?_property {id : SymId} {s : Symbol} {p : Property} (hs : g.find? id = some s)
    (hd : s.detail = .property p) : g.next? id = p.impl.target?.map Prod.fst := by
  rw [next?, hs, Option.map_some, hd]

/-- The links of a chain in a loaded graph are symbols of the graph.

**Proof sketch.** The member of a slot was looked up in the registry, and the property of an
accessor was declared with it. -/
lemma Loaded.next?_known (h : g.Loaded) {id id' : SymId} (hnext : g.next? id = some id') :
    ∃ s, g.find? id' = some s := by
  cases hs : g.find? id with
  | none => simp [next?, hs] at hnext
  | some s =>
    cases hd : s.detail with
    | method m =>
      have hm := h.method hs hd
      rw [next?_method hs hd] at hnext
      cases ht : m.impl.target? with
      | some target =>
        simp only [ht, Option.map_some, Option.some_or, Option.some.injEq] at hnext
        exact hnext ▸ (hm.impl.target ht).1
      | none =>
        simp only [ht, Option.map_none, Option.none_or] at hnext
        obtain ⟨_, _, s', _, hs', _⟩ := hm.property hnext
        exact ⟨s', hs'⟩
    | property p =>
      rw [next?_property hs hd] at hnext
      obtain ⟨target, ht, rfl⟩ := Option.map_eq_some_iff.1 hnext
      exact ((h.property hs hd).impl.target ht).1
    | _ => simp [next?, hs, hd] at hnext

/-- The symbols on a chain that ends are pairwise different symbols of the graph. -/
lemma LeadsIn.path (hg : g.Loaded) {links : Nat} {id last : SymId} (h : g.LeadsIn links id last)
    {s : Symbol} (hs : g.find? id = some s) :
    ∃ ids : List SymId, ids.length = links + 1 ∧ ids.Nodup ∧
      ∀ x ∈ ids, (∃ s, g.find? x = some s) ∧ ∃ n ≤ links, g.LeadsIn n x last := by
  induction h generalizing s with
  | @here id hnone =>
    refine ⟨[id], rfl, List.nodup_singleton id, ?_⟩
    simpa using ⟨⟨s, hs⟩, .here hnone⟩
  | @next links id id' last hnext h ih =>
    obtain ⟨s', hs'⟩ := hg.next?_known hnext
    obtain ⟨ids, hlength, hnodup, hids⟩ := ih hs'
    refine ⟨id :: ids, by rw [List.length_cons, hlength], ?_, ?_⟩
    · -- the end is one link further from the first symbol than from all others
      refine List.nodup_cons.2 ⟨fun hmem => ?_, hnodup⟩
      obtain ⟨_, n, hn, hleads⟩ := hids id hmem
      have heq := (hleads.unique (.next hnext h)).1
      omega
    · intro x hx
      rcases List.mem_cons.1 hx with rfl | hx
      · exact ⟨⟨s, hs⟩, links + 1, Nat.le_refl _, .next hnext h⟩
      · obtain ⟨hknown, n, hn, hleads⟩ := hids x hx
        exact ⟨hknown, n, by omega, hleads⟩

/-- **A chain that ends is shorter than the graph.** -/
theorem LeadsIn.lt_size (hg : g.Loaded) {links : Nat} {id last : SymId}
    (h : g.LeadsIn links id last) {s : Symbol} (hs : g.find? id = some s) : links < g.size := by
  obtain ⟨ids, hlength, hnodup, hids⟩ := h.path hg hs
  have hsubset : ids ⊆ g.symbols.map Prod.fst := by
    intro x hx
    obtain ⟨⟨s, hs⟩, _⟩ := hids x hx
    exact List.mem_map_of_mem (Table.mem_of_get? hs)
  have hle := (List.subperm_of_subset hnodup hsubset).length_le
  rw [hlength, List.length_map] at hle
  exact hle

end Graph

end DisplayNames
