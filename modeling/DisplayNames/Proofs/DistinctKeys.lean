import DisplayNames.Json.Reader
import Mathlib.Tactic.Lemma

/-!
# Objects with distinct keys

An object holds one value under each of its keys.  The reader sees to that: a key that is repeated
changes its value and keeps its place, so whatever is read has no object in which a key stands
twice.

## Main definitions

* `DisplayNames.Json.DistinctKeys` — no object in a value repeats a key.

## Main results

* `DisplayNames.Json.DistinctKeys.insert` — a field that is entered repeats no key.
* `DisplayNames.Json.read?_distinctKeys` — every value that is read has distinct keys.
-/

set_option relaxedAutoImplicit false
set_option autoImplicit false

namespace DisplayNames

/-! ## Values -/

namespace Json

/-- No object in the value repeats a key. -/
inductive DistinctKeys : Json → Prop
  | null : DistinctKeys .null
  | bool {value : Bool} : DistinctKeys (.bool value)
  | int {value : Int} : DistinctKeys (.int value)
  | float {value : Float} : DistinctKeys (.float value)
  | str {value : String} : DistinctKeys (.str value)
  | arr {items : List Json} : (∀ item ∈ items, DistinctKeys item) → DistinctKeys (.arr items)
  | obj {fields : List (String × Json)} : (fields.map Prod.fst).Nodup →
    (∀ e ∈ fields, DistinctKeys e.2) → DistinctKeys (.obj fields)

attribute [simp] DistinctKeys.null DistinctKeys.bool DistinctKeys.int DistinctKeys.float
  DistinctKeys.str

/-- An object has distinct keys if its own keys are distinct and its values have distinct keys. -/
lemma distinctKeys_obj_iff {fields : List (String × Json)} :
    (Json.obj fields).DistinctKeys ↔
      (fields.map Prod.fst).Nodup ∧ ∀ e ∈ fields, e.2.DistinctKeys :=
  ⟨fun h => by cases h with | obj hkeys hvalues => exact ⟨hkeys, hvalues⟩, fun h => .obj h.1 h.2⟩

@[simp] lemma distinctKeys_obj_nil : (Json.obj []).DistinctKeys := .obj (by simp) (by simp)

/-- A further field needs a key of its own. -/
@[simp] lemma distinctKeys_obj_cons {key : String} {value : Json} {fields : List (String × Json)} :
    (Json.obj ((key, value) :: fields)).DistinctKeys ↔
      key ∉ fields.map Prod.fst ∧ value.DistinctKeys ∧ (Json.obj fields).DistinctKeys := by
  rw [distinctKeys_obj_iff, distinctKeys_obj_iff, List.map_cons, List.nodup_cons,
    List.forall_mem_cons]
  exact ⟨fun ⟨⟨hkey, hkeys⟩, hvalue, hvalues⟩ => ⟨hkey, hvalue, hkeys, hvalues⟩,
    fun ⟨hkey, hvalue, hkeys, hvalues⟩ => ⟨⟨hkey, hkeys⟩, hvalue, hvalues⟩⟩

/-- A field that is entered repeats no key. -/
theorem DistinctKeys.insert {fields : List (String × Json)} (h : (Json.obj fields).DistinctKeys)
    (key : String) {value : Json} (hvalue : value.DistinctKeys) :
    (Json.obj (Table.insert fields key value)).DistinctKeys := by
  obtain ⟨hkeys, hvalues⟩ := distinctKeys_obj_iff.1 h
  refine .obj (Table.nodup_insert hkeys key value) fun e he => ?_
  rcases Table.mem_insert he with he | rfl
  · exact hvalues e he
  · exact hvalue

/-! ## The reader -/

namespace Reader

/-- Numbers hold no objects. -/
lemma number_distinctKeys {s rest : List Char} {v : Json} (h : number s = some (v, rest)) :
    v.DistinctKeys := by
  have hunsigned (negative : Bool) (whole rest : List Char) :
      (unsigned negative whole rest).1.DistinctKeys := by
    unfold unsigned
    dsimp only
    split
    · exact .int
    · exact .float
  have hsome {p : Json × List Char} (hp : some p = some (v, rest)) (hv : p.1.DistinctKeys) :
      v.DistinctKeys := by
    cases hp
    exact hv
  unfold number at h
  dsimp only at h
  split at h
  · exact hsome h (hunsigned ..)
  · split at h
    · exact hsome h (hunsigned ..)
    · cases h
  · cases h

/-- The words that are values hold no objects. -/
lemma constant?_distinctKeys {s rest : List Char} {v : Json} (h : constant? s = some (v, rest)) :
    v.DistinctKeys := by
  obtain ⟨⟨name, value⟩, hword, h⟩ := List.exists_of_findSome?_eq_some h
  obtain ⟨_, _, hpair⟩ := Option.map_eq_some_iff.1 h
  cases hpair
  simp only [words, List.mem_cons, Prod.mk.injEq, List.not_mem_nil, or_false] at hword
  rcases hword with ⟨_, rfl⟩ | ⟨_, rfl⟩ | ⟨_, rfl⟩ | ⟨_, rfl⟩ | ⟨_, rfl⟩ | ⟨_, rfl⟩ <;> constructor

/-- Whatever is read has distinct keys: values, the items of lists, and the fields of objects behind
fields with distinct keys.

**Proof sketch.** Induction on the fuel, with the cases of the readers.  Only the fields of an
object ask for an argument: a field is entered into those in front of it, which changes a value or
adds a key that is not there. -/
lemma distinctKeys (fuel : Nat) :
    (∀ s v rest, value fuel s = some (v, rest) → v.DistinctKeys) ∧
      (∀ s vs rest, items fuel s = some (vs, rest) → ∀ v ∈ vs, v.DistinctKeys) ∧
        ∀ before s fs rest, (Json.obj before).DistinctKeys →
          fields fuel before s = some (fs, rest) → (Json.obj fs).DistinctKeys := by
  induction fuel with
  | zero => exact ⟨by simp [value], by simp [items], by simp [fields]⟩
  | succ fuel ih =>
    obtain ⟨hvalue, hitems, hfields⟩ := ih
    refine ⟨fun s v rest h => ?_, fun s vs rest h => ?_, fun before s fs rest hbefore h => ?_⟩
    · unfold value at h
      split at h
      · obtain ⟨_, _, hpair⟩ := Option.map_eq_some_iff.1 h
        cases hpair
        exact .str
      · split at h
        · cases h
          exact .arr (by simp)
        · obtain ⟨⟨vs, _⟩, hvs, hpair⟩ := Option.map_eq_some_iff.1 h
          cases hpair
          exact .arr (hitems _ _ _ hvs)
      · split at h
        · cases h
          exact distinctKeys_obj_nil
        · obtain ⟨⟨fs, _⟩, hfs, hpair⟩ := Option.map_eq_some_iff.1 h
          cases hpair
          exact hfields _ _ _ _ distinctKeys_obj_nil hfs
      · rcases Option.or_eq_some_iff.1 h with h | ⟨_, h⟩
        · exact constant?_distinctKeys h
        · exact number_distinctKeys h
    · unfold items at h
      split at h
      · cases h
      · rename_i item behind hitem
        split at h
        · cases h
          simpa using hvalue _ _ _ hitem
        · obtain ⟨⟨vs', _⟩, hvs, hpair⟩ := Option.map_eq_some_iff.1 h
          cases hpair
          simpa using ⟨hvalue _ _ _ hitem, hitems _ _ _ hvs⟩
        · cases h
    · unfold fields at h
      split at h
      · split at h
        · cases h
        · rename_i key _ _
          split at h
          · split at h
            · cases h
            · rename_i item _ hitem
              have hnext := hbefore.insert key (hvalue _ _ _ hitem)
              dsimp only at h
              split at h
              · cases h
                exact hnext
              · exact hfields _ _ _ _ hnext h
              · cases h
          · cases h
      · cases h

end Reader

/-- **Every value that is read has distinct keys.** -/
theorem read?_distinctKeys {text : String} {value : Json} (h : read? text = some value) :
    value.DistinctKeys := by
  unfold read? at h
  dsimp only at h
  split at h
  · cases h
  · rename_i hvalue
    split at h
    · cases h
      exact (Reader.distinctKeys _).1 _ _ _ hvalue
    · cases h

end Json

end DisplayNames
