/-!
# Insertion-ordered tables

A table is a list of entries with pairwise different keys, in the order in which the keys were
first entered.  Inserting a key again changes its value and keeps its place.

## Main definitions

* `DisplayNames.Table` — the entries in order.
* `DisplayNames.Table.get?` — the value under a key.
* `DisplayNames.Table.insert` — enter or change a key.
* `DisplayNames.Table.insertIfNew` — enter a key that is still free.
* `DisplayNames.Table.contains` — a key is present.
* `DisplayNames.Table.insertMany` — enter a row of entries, from first to last.

## Main results

* `DisplayNames.Table.get?_insert` — a changed table differs at the changed key alone.
* `DisplayNames.Table.get?_insertIfNew` — a key that is present is never rebound.
* `DisplayNames.Table.get?_insertMany` — of several entries none is lost.
* `DisplayNames.Table.nodup_insert` — entering a key keeps keys distinct.
* `DisplayNames.Table.get?_eq_some_iff` — every entry of a table with distinct keys is found.
-/

set_option relaxedAutoImplicit false
set_option autoImplicit false

namespace DisplayNames

/-- Entries in the order in which their keys were first entered. -/
abbrev Table (κ α : Type) := List (κ × α)

namespace Table

variable {κ α : Type} [DecidableEq κ]

/-- The value under a key. -/
def get? : Table κ α → κ → Option α
  | [], _ => none
  | (k, a) :: rest, key => if k = key then some a else get? rest key

/-- A key is present. -/
def contains (t : Table κ α) (key : κ) : Bool := (t.get? key).isSome

/-- Enter a key at the end, or change its value in place. -/
def insert : Table κ α → κ → α → Table κ α
  | [], key, value => [(key, value)]
  | (k, a) :: rest, key, value =>
    if k = key then (key, value) :: rest else (k, a) :: insert rest key value

/-- Enter a key at the end unless it is present. -/
def insertIfNew : Table κ α → κ → α → Table κ α
  | [], key, value => [(key, value)]
  | (k, a) :: rest, key, value =>
    if k = key then (k, a) :: rest else (k, a) :: insertIfNew rest key value

/-- Enter several entries, one after the other. -/
def insertMany (t : Table κ α) (entries : List (κ × α)) : Table κ α :=
  entries.foldl (fun t e => t.insert e.1 e.2) t

@[simp] theorem get?_nil (key : κ) : get? ([] : Table κ α) key = none := rfl

theorem get?_cons (k : κ) (a : α) (rest : Table κ α) (key : κ) :
    get? ((k, a) :: rest) key = if k = key then some a else get? rest key := rfl

/-- A changed table differs at the changed key alone. -/
theorem get?_insert (t : Table κ α) (key : κ) (value : α) (other : κ) :
    (t.insert key value).get? other = if key = other then some value else t.get? other := by
  induction t with
  | nil => simp [insert, get?_cons]
  | cons e rest ih =>
    obtain ⟨k, a⟩ := e
    by_cases hk : k = key
    · subst hk
      by_cases ho : k = other <;> simp [insert, get?_cons, ho]
    · by_cases ho : k = other
      · subst ho
        simp [insert, get?_cons, hk, Ne.symm hk]
      · simp [insert, get?_cons, hk, ho, ih]

/-- A key that is present is never rebound, and every other key keeps what it has. -/
theorem get?_insertIfNew (t : Table κ α) (key : κ) (value : α) (other : κ) :
    (t.insertIfNew key value).get? other =
      if key = other then some ((t.get? key).getD value) else t.get? other := by
  induction t with
  | nil => by_cases h : key = other <;> simp [insertIfNew, get?_cons, h]
  | cons e rest ih =>
    obtain ⟨k, a⟩ := e
    by_cases hk : k = key
    · subst hk
      by_cases ho : k = other <;> simp [insertIfNew, get?_cons, ho]
    · by_cases ho : k = other
      · subst ho
        simp [insertIfNew, get?_cons, hk, Ne.symm hk]
      · simp only [insertIfNew, get?_cons, hk, ho, if_false, ih]

/-- Entries behind the first table are seen only where it has none. -/
theorem get?_append (t u : Table κ α) (key : κ) :
    get? (t ++ u) key = (t.get? key).or (u.get? key) := by
  induction t with
  | nil => simp
  | cons e rest ih =>
    obtain ⟨k, a⟩ := e
    by_cases h : k = key <;> simp [get?_cons, h, ih]

/-- In a table with changed keys and values the changed value is found under the changed key, if
different keys stay different. -/
theorem get?_map_key {κ' β : Type} [DecidableEq κ'] {f : κ → κ'} (hf : ∀ a b, f a = f b → a = b)
    (g : α → β) (t : Table κ α) (key : κ) :
    get? (t.map fun e => (f e.1, g e.2)) (f key) = (t.get? key).map g := by
  induction t with
  | nil => rfl
  | cons e rest ih =>
    obtain ⟨k, a⟩ := e
    rw [List.map_cons, get?_cons, get?_cons, ih]
    by_cases hk : k = key
    · rw [if_pos hk, if_pos (congrArg f hk), Option.map_some]
    · rw [if_neg hk, if_neg fun h => hk (hf _ _ h)]

/-- In a table with changed values the changed value is found. -/
theorem get?_map {β : Type} (f : α → β) (t : Table κ α) (key : κ) :
    get? (t.map fun e => (e.1, f e.2)) key = (t.get? key).map f :=
  get?_map_key (f := fun key => key) (fun _ _ h => h) f t key

/-- What is found under a key is an entry. -/
theorem mem_of_get? {t : Table κ α} {key : κ} {value : α} (h : t.get? key = some value) :
    (key, value) ∈ t := by
  induction t with
  | nil => simp at h
  | cons e rest ih =>
    obtain ⟨k, a⟩ := e
    by_cases hk : k = key
    · simp_all [get?_cons]
    · rw [get?_cons, if_neg hk] at h
      exact List.mem_cons_of_mem _ (ih h)

/-- What stands in a table in which a key is entered stood there before or is the new entry. -/
theorem mem_insert {t : Table κ α} {key : κ} {value : α} {e : κ × α}
    (h : e ∈ t.insert key value) : e ∈ t ∨ e = (key, value) := by
  induction t with
  | nil => exact .inr (List.mem_singleton.1 h)
  | cons e' rest ih =>
    obtain ⟨k, a⟩ := e'
    unfold insert at h
    split at h <;> rcases List.mem_cons.1 h with h | h
    · exact .inr h
    · exact .inl (List.mem_cons_of_mem _ h)
    · exact .inl (h ▸ List.mem_cons_self)
    · exact (ih h).imp_left (List.mem_cons_of_mem _)

/-- Entering a key keeps keys distinct. -/
theorem nodup_insert {t : Table κ α} (h : (t.map Prod.fst).Nodup) (key : κ) (value : α) :
    ((t.insert key value).map Prod.fst).Nodup := by
  induction t with
  | nil => simp [insert]
  | cons e rest ih =>
    obtain ⟨k, a⟩ := e
    rw [List.map_cons, List.nodup_cons] at h
    by_cases hk : k = key
    · subst hk
      simpa [insert] using h
    · rw [insert, if_neg hk, List.map_cons, List.nodup_cons]
      refine ⟨fun hmem => ?_, ih h.2⟩
      obtain ⟨e, he, heq⟩ := List.mem_map.1 hmem
      rcases mem_insert he with he | rfl
      · exact h.1 (List.mem_map.2 ⟨e, he, heq⟩)
      · exact hk heq.symm

/-- Nothing is found under a key that is free. -/
theorem get?_of_not_mem {t : Table κ α} {key : κ} (h : key ∉ t.map Prod.fst) :
    t.get? key = none := by
  cases hget : t.get? key with
  | none => rfl
  | some value => exact absurd (List.mem_map.2 ⟨_, mem_of_get? hget, rfl⟩) h

/-- Entries with distinct keys that are entered one after the other win over those of the table,
which are kept under all other keys. -/
theorem get?_insertMany {entries : List (κ × α)} (h : (entries.map Prod.fst).Nodup) (t : Table κ α)
    (key : κ) : (t.insertMany entries).get? key = (get? entries key).or (t.get? key) := by
  induction entries generalizing t with
  | nil => rfl
  | cons e rest ih =>
    obtain ⟨k, a⟩ := e
    rw [List.map_cons, List.nodup_cons] at h
    have hrest : (t.insertMany ((k, a) :: rest)).get? key =
        (get? rest key).or ((t.insert k a).get? key) := ih h.2 (t.insert k a)
    rw [hrest, get?_insert, get?_cons]
    split
    · rename_i hkey
      subst hkey
      rw [get?_of_not_mem h.1]
      rfl
    · rfl

/-- In a table whose keys are pairwise different every entry is found. -/
theorem get?_eq_some_iff {t : Table κ α}
    (hnodup : (t.map Prod.fst).Nodup) {key : κ} {value : α} :
    t.get? key = some value ↔ (key, value) ∈ t := by
  induction t with
  | nil => simp
  | cons e rest ih =>
    obtain ⟨k, a⟩ := e
    rw [List.map_cons, List.nodup_cons] at hnodup
    by_cases hk : k = key
    · subst hk
      have hrest : (k, value) ∉ rest := fun hmem => hnodup.1 (List.mem_map.2 ⟨_, hmem, rfl⟩)
      simp [get?_cons, hrest, eq_comm]
    · simp [get?_cons, hk, ih hnodup.2, Ne.symm hk]

end Table

end DisplayNames
