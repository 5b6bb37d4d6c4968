import DisplayNames.Proofs.RequestOutcome
import Mathlib.Data.List.Induction

/-!
# Suffix notation

Pointers, nullables and arrays are written behind the type around which they are, a star, a question
mark or a pair of brackets for each of them.  The brackets of arrays of arrays come in the order
opposite to that of the other suffixes, and a star can stand inside brackets as well.  All the same
the text of a type that is built in this way from parameters without a name determines the type.

It is read from its end.  A text that ends in a closing bracket is that of an array: the groups of
brackets at its end are the layers of the array, because what they stand behind does not end in a
bracket.  Any other text ends in a star, in a question mark or in an index.

The vector flag of an array of rank two or more is not written, so it is not determined.

## Main definitions

* `DisplayNames.Ty.Suffixed` — the types that are built from parameters without a name.
* `DisplayNames.Layer`, `DisplayNames.Ty.layers` — the layers of an array, outermost first.
* `DisplayNames.Layer.text` — the brackets of a layer.
* `DisplayNames.Ty.shape` — a type without what is not written of its arrays.

## Main results

* `DisplayNames.Layer.shape_eq_of_text` — groups of brackets are read from the end of a text.
* `DisplayNames.Ty.Suffixed.shape_eq` — the text of a suffixed type determines its shape.
* `DisplayNames.Renderer.render_suffixed` — suffix notation is unambiguous.
-/

set_option relaxedAutoImplicit false
set_option autoImplicit false

namespace DisplayNames

/-! ## Types that are built by suffixes -/

/-- A type that is built from a parameter without a name by pointers, nullables and arrays. -/
inductive Ty.Suffixed : Ty → Prop
  | param {index : Ordinal} {ofMethod : Bool} :
    0 ≤ index.value → Suffixed (.param index ofMethod none)
  | pointer {referent : Ty} : Suffixed referent → Suffixed (.pointer referent)
  | nullable {underlying : Ty} : Suffixed underlying → Suffixed (.nullable underlying)
  | array {element : Ty} {rank : Ordinal} {vector : Bool} :
    Suffixed element → 1 ≤ rank.value → Suffixed (.array element rank vector)

/-- One layer of an array. -/
structure Layer where
  rank : Int
  vector : Bool

/-- The layers of an array, outermost first. -/
def Ty.layers : Ty → List Layer
  | .array element rank vector => ⟨rank.value, vector⟩ :: element.layers
  | _ => []

/-- A layer in which the vector flag only counts for rank one. -/
def Layer.shape (l : Layer) : Layer := ⟨l.rank, l.vector && l.rank == 1⟩

/-- A type in which the vector flags of arrays only count for rank one, and ranks by their value. -/
def Ty.shape : Ty → Ty
  | .array element rank vector =>
    .array element.shape (.number rank.value) (vector && rank.value == 1)
  | .pointer referent => .pointer referent.shape
  | .nullable underlying => .nullable underlying.shape
  | t => t

/-- What stands between the brackets of a layer. -/
def Layer.inside (l : Layer) : List Char :=
  if l.rank = 1 then (if l.vector then [] else ['*']) else List.replicate (l.rank - 1).toNat ','

/-- The brackets of a layer: a comma less than its rank, or a star for rank one without the vector
flag. -/
def Layer.text (l : Layer) : String := String.ofList ('[' :: l.inside ++ [']'])

/-- The text of a type without the brackets of its own layers, for the types that are built by
suffixes. -/
def Ty.baseText : Ty → String
  | .param index ofMethod _ => (if ofMethod then "!!" else "!") ++ index.text
  | .array element _ _ => element.baseText
  | .pointer referent => referent.baseText ++ String.join (referent.layers.map Layer.text) ++ "*"
  | .nullable underlying =>
    underlying.baseText ++ String.join (underlying.layers.map Layer.text) ++ "?"
  | _ => ""

/-- The text of a type that is built by suffixes. -/
def Ty.suffixText (t : Ty) : String := t.baseText ++ String.join (t.layers.map Layer.text)

/-! ## The text -/

/-- The brackets of a layer are displayed as its text. -/
lemma finish_bracket (catalog : Catalog) (rank : Int) (vector : Bool) :
    (bracket rank vector).finish catalog = .ok (Layer.text ⟨rank, vector⟩) := by
  have hopen : (Rendering.literal "[").finish catalog = .ok "[" :=
    Rendering.finish_literal catalog _
  have hclose : (Rendering.literal "]").finish catalog = .ok "]" :=
    Rendering.finish_literal catalog _
  have htext (inside : List Char) :
      String.ofList ('[' :: inside ++ [']']) = "[" ++ String.ofList inside ++ "]" := by
    apply String.toList_inj.1
    simp
  unfold bracket Layer.text Layer.inside
  rw [htext, Rendering.finish_andThen, Rendering.finish_andThen, hopen, hclose]
  by_cases hrank : rank = 1
  · cases vector <;> simp [hrank] <;> rfl
  · simp only [hrank, if_false, Rendering.finish_literal]
    rfl

/-- The brackets of all layers are displayed outermost first. -/
lemma finish_brackets (catalog : Catalog) (t : Ty) :
    (brackets t).finish catalog = .ok (String.join (t.layers.map Layer.text)) := by
  induction t using Ty.layers.induct with
  | case1 element rank vector ih =>
    rw [brackets, Rendering.finish_andThen, finish_bracket, ih, Ty.layers, List.map_cons,
      String.join_cons]
    rfl
  | case2 t hnot =>
    have hlayers : t.layers = [] := by
      cases t <;> simp_all [Ty.layers]
    have hbrackets : brackets t = .empty := by
      cases t <;> simp_all [brackets]
    rw [hlayers, hbrackets]
    rfl

section

variable (scene : Scene) (around : Option SymId → Rendering) (catalog : Catalog)

/-- The text of a suffixed type without the brackets of its own layers. -/
lemma Ty.Suffixed.finish_renderBase {t : Ty} (ht : t.Suffixed) :
    (renderBase scene around t).finish catalog = .ok t.baseText := by
  have hsuffix {inner : Ty} (ih : (renderBase scene around inner).finish catalog =
      .ok inner.baseText) (suffix : String) :
      (renderBase scene around inner >> brackets inner >> .literal suffix).finish catalog =
        .ok (inner.baseText ++ String.join (inner.layers.map Layer.text) ++ suffix) := by
    rw [Rendering.finish_andThen, Rendering.finish_andThen, ih, finish_brackets,
      Rendering.finish_literal, String.append_assoc]
    rfl
  induction ht with
  | @param index ofMethod _ =>
    rw [renderBase, typeParamText, Rendering.finish_andThen, Rendering.finish_literal,
      Rendering.finish_literal]
    rfl
  | pointer _ ih => exact hsuffix ih "*"
  | nullable _ ih => exact hsuffix ih "?"
  | array _ _ ih => exact ih

/-- The text of a suffixed type. -/
lemma Ty.Suffixed.finish_renderTy {t : Ty} (ht : t.Suffixed) :
    (renderTy scene around t).finish catalog = .ok t.suffixText := by
  rw [renderTy, Rendering.finish_andThen, ht.finish_renderBase, finish_brackets]
  rfl

end

/-! ## Reading groups of brackets -/

/-- Two lists with a mark in them that have no such mark behind it are cut there. -/
lemma eq_of_append_mark {α : Type} {mark : α} {front front' back back' : List α}
    (hback : mark ∉ back) (hback' : mark ∉ back')
    (h : front ++ mark :: back = front' ++ mark :: back') : front = front' ∧ back = back' := by
  rcases List.append_eq_append_iff.1 h with ⟨between, rfl, hrest⟩ | ⟨between, rfl, hrest⟩
  · cases between with
    | nil => simpa using hrest
    | cons x between =>
      have hmem : mark ∈ back := by simp [(List.cons.inj hrest).2]
      exact absurd hmem hback
  · cases between with
    | nil => simpa using hrest.symm
    | cons x between =>
      have hmem : mark ∈ back' := by simp [(List.cons.inj hrest).2]
      exact absurd hmem hback'

namespace Layer

/-- There are neither brackets nor anything but stars and commas between the brackets. -/
lemma not_mem_inside {c : Char} (hstar : c ≠ '*') (hcomma : c ≠ ',') (l : Layer) :
    c ∉ l.inside := by
  unfold inside
  split
  · split <;> simp [hstar]
  · simp [List.mem_replicate, hcomma]

/-- What stands between the brackets determines the shape of a layer. -/
lemma shape_eq_of_inside {l l' : Layer} (hrank : 1 ≤ l.rank) (hrank' : 1 ≤ l'.rank)
    (h : l.inside = l'.inside) : l.shape = l'.shape := by
  obtain ⟨rank, vector⟩ := l
  obtain ⟨rank', vector'⟩ := l'
  dsimp only at hrank hrank'
  by_cases hone : rank = 1 <;> by_cases hone' : rank' = 1
  · cases vector <;> cases vector' <;> simp_all [inside, shape]
  · obtain ⟨k, hk⟩ : ∃ k, (rank' - 1).toNat = k + 1 := ⟨(rank' - 1).toNat - 1, by omega⟩
    cases vector <;> simp [inside, hone, hone', hk, List.replicate_succ] at h
  · obtain ⟨k, hk⟩ : ∃ k, (rank - 1).toNat = k + 1 := ⟨(rank - 1).toNat - 1, by omega⟩
    cases vector' <;> simp [inside, hone, hone', hk, List.replicate_succ] at h
  · have hlength := congrArg List.length h
    simp only [inside, hone, hone', if_false, List.length_replicate] at hlength
    obtain rfl : rank = rank' := by omega
    have hnot : (rank == 1) = false := by simpa using hone
    simp [shape, hnot]

/-- The text of a layer as a list of characters. -/
lemma toList_text (l : Layer) : l.text.toList = '[' :: l.inside ++ [']'] :=
  String.toList_ofList

/-- A text with a group of brackets at its end ends in a bracket. -/
lemma getLast?_append_text (front : List Char) (init : List Layer) (last : Layer) :
    (front ++ (init ++ [last]).flatMap fun l => l.text.toList).getLast? = some ']' := by
  rw [List.flatMap_append, List.flatMap_singleton, toList_text last, ← List.append_assoc,
    ← List.append_assoc, List.getLast?_concat]

/-- **Groups of brackets are read from the end of a text.**  What stands in front of them does not
end in a bracket, so the text determines it and the shapes of the layers.

**Proof sketch.** Induction on the layers from the last one.  The last opening bracket of the text
is that of the last group, because there is none between brackets. -/
theorem shape_eq_of_text {front front' : List Char} (hfront : front.getLast? ≠ some ']')
    (hfront' : front'.getLast? ≠ some ']') {ls ls' : List Layer} (hranks : ∀ l ∈ ls, 1 ≤ l.rank)
    (hranks' : ∀ l ∈ ls', 1 ≤ l.rank)
    (h : front ++ ls.flatMap (fun l => l.text.toList) =
      front' ++ ls'.flatMap fun l => l.text.toList) :
    front = front' ∧ ls.map shape = ls'.map shape := by
  induction ls using List.reverseRecOn generalizing ls' with
  | nil =>
    rcases List.eq_nil_or_concat ls' with rfl | ⟨init', last', rfl⟩
    · exact ⟨by simpa using h, rfl⟩
    · rw [List.flatMap_nil, List.append_nil, List.concat_eq_append] at h
      exact absurd (h ▸ getLast?_append_text front' init' last') hfront
  | append_singleton init last ih =>
    rcases List.eq_nil_or_concat ls' with rfl | ⟨init', last', rfl⟩
    · rw [List.flatMap_nil, List.append_nil] at h
      exact absurd (h ▸ getLast?_append_text front init last) hfront'
    · rw [List.concat_eq_append] at h hranks' ⊢
      rw [List.flatMap_append, List.flatMap_append, List.flatMap_singleton, List.flatMap_singleton,
        toList_text last, toList_text last', ← List.append_assoc, ← List.append_assoc,
        ← List.append_assoc, ← List.append_assoc, List.append_cancel_right_eq] at h
      have hopen : ∀ l : Layer, '[' ∉ l.inside := not_mem_inside (by decide) (by decide)
      obtain ⟨hrest, hinside⟩ := eq_of_append_mark (hopen last) (hopen last') h
      obtain ⟨hfronts, hshapes⟩ := ih (fun l hl => hranks l (List.mem_append_left _ hl))
        (fun l hl => hranks' l (List.mem_append_left _ hl)) hrest
      have hlast : last.shape = last'.shape :=
        shape_eq_of_inside (hranks last (by simp)) (hranks' last' (by simp)) hinside
      exact ⟨hfronts, by simp [hshapes, hlast]⟩

end Layer

/-! ## Reading types -/

namespace Ordinal

/-- A position that is a natural number is written with its digits. -/
lemma text_number (n : Nat) : (number n).text.toList = Nat.toDigits 10 n := Nat.toList_repr

/-- A position that is not negative is written with letters and digits. -/
lemma text_chars {i : Ordinal} (hi : 0 ≤ i.value) : ∀ c ∈ i.text.toList, c.isAlphanum = true := by
  cases i with
  | truth b =>
    have hall : (truth b).text.toList.all Char.isAlphanum = true := by cases b <;> decide
    exact List.all_eq_true.1 hall
  | number n =>
    obtain ⟨n, rfl⟩ := Int.eq_ofNat_of_zero_le hi
    intro c hc
    rw [text_number] at hc
    have hdigit := Nat.isDigit_of_mem_toDigits (by decide) (by decide) hc
    simp [Char.isAlphanum, hdigit]

/-- The text of a position that is not negative determines it.

**Proof sketch.** Digits determine a number, and the texts of the two booleans are different.  A
boolean's text has a letter, so it is no number's. -/
lemma eq_of_text {i j : Ordinal} (hi : 0 ≤ i.value) (hj : 0 ≤ j.value) (h : i.text = j.text) :
    i = j := by
  have hspelling (n : Nat) (b : Bool) : (number n).text ≠ (truth b).text := by
    intro heq
    have hmem : 'e' ∈ (truth b).text.toList := by cases b <;> decide
    rw [← heq, text_number] at hmem
    exact absurd (Nat.isDigit_of_mem_toDigits (by decide) (by decide) hmem) (by decide)
  cases i with
  | number n =>
    obtain ⟨n, rfl⟩ := Int.eq_ofNat_of_zero_le hi
    cases j with
    | number m =>
      obtain ⟨m, rfl⟩ := Int.eq_ofNat_of_zero_le hj
      have hdigits : Nat.toDigits 10 n = Nat.toDigits 10 m := by
        rw [← text_number, ← text_number, h]
      rw [← Nat.ofDigitChars_ten_toDigits (n := n), hdigits, Nat.ofDigitChars_ten_toDigits]
    | truth b => exact absurd h (hspelling n b)
  | truth b =>
    cases j with
    | number m =>
      obtain ⟨m, rfl⟩ := Int.eq_ofNat_of_zero_le hj
      exact absurd h.symm (hspelling m b)
    | truth c => cases b <;> cases c <;> simp_all [text]

end Ordinal

namespace Ty

/-- The brackets of its own layers do not belong to the base of a type. -/
lemma baseText_base (t : Ty) : t.base.baseText = t.baseText := by
  induction t using Ty.base.induct with
  | case1 element rank vector ih => rw [base, ih, baseText]
  | case2 t hnot => cases t <;> simp_all [base]

/-- What is not an array has no brackets of its own. -/
lemma suffixText_base (t : Ty) : t.base.suffixText = t.baseText := by
  have hlayers : t.base.layers = [] := by
    induction t using Ty.base.induct with
    | case1 element rank vector ih => rw [base, ih]
    | case2 t hnot => cases t <;> simp_all [base, layers]
  rw [suffixText, hlayers, baseText_base, List.map_nil, String.join_nil, String.append_empty]

/-- The shape of a type is put together from those of its base and its layers. -/
lemma shape_eq_foldr (t : Ty) : t.shape =
    (t.layers.map Layer.shape).foldr (fun l e => .array e (.number l.rank) l.vector)
      t.base.shape := by
  induction t using Ty.base.induct with
  | case1 element rank vector ih => simp [shape, layers, base, ih, Layer.shape]
  | case2 t hnot => cases t <;> simp_all [layers, base]

namespace Suffixed

variable {t u : Ty}

/-- The layers of a suffixed type have a rank. -/
lemma one_le_rank (ht : t.Suffixed) : ∀ l ∈ t.layers, 1 ≤ l.rank := by
  induction ht with
  | array _ hrank ih => simpa [layers, hrank] using ih
  | _ => simp [layers]

/-- The base of a suffixed type is a parameter, a pointer or a nullable. -/
lemma base_cases (ht : t.Suffixed) :
    (∃ index ofMethod, 0 ≤ index.value ∧ t.base = .param index ofMethod none) ∨
      (∃ inner, inner.Suffixed ∧ t.base = .pointer inner) ∨
        ∃ inner, inner.Suffixed ∧ t.base = .nullable inner := by
  induction ht with
  | param hindex => exact .inl ⟨_, _, hindex, rfl⟩
  | pointer hinner => exact .inr (.inl ⟨_, hinner, rfl⟩)
  | nullable hinner => exact .inr (.inr ⟨_, hinner, rfl⟩)
  | array _ _ ih => exact ih

/-- The base of a suffixed type is a suffixed type. -/
lemma base (ht : t.Suffixed) : t.base.Suffixed := by
  rcases ht.base_cases with ⟨_, _, hindex, hbase⟩ | ⟨_, hinner, hbase⟩ | ⟨_, hinner, hbase⟩ <;>
    rw [hbase]
  · exact .param hindex
  · exact .pointer hinner
  · exact .nullable hinner

/-- A parameter without a name is written with exclamation marks, letters and digits. -/
lemma param_chars {index : Ordinal} (hindex : 0 ≤ index.value) (ofMethod : Bool) :
    ∀ c ∈ (Ty.param index ofMethod none).baseText.toList, c = '!' ∨ c.isAlphanum = true := by
  intro c hc
  rw [baseText, String.toList_append, List.mem_append] at hc
  rcases hc with hc | hc
  · cases ofMethod <;> simp_all
  · exact .inr (Ordinal.text_chars hindex c hc)

/-- The last character of a suffixed type without the brackets of its own layers. -/
lemma getLast?_baseText (ht : t.Suffixed) :
    t.baseText.toList.getLast? ≠ some ']' := by
  rw [← baseText_base]
  rcases ht.base_cases with ⟨index, ofMethod, hindex, hbase⟩ | ⟨inner, _, hbase⟩ | ⟨inner, _, hbase⟩
  · rw [hbase]
    intro hlast
    rcases param_chars hindex ofMethod _ (List.mem_of_getLast? hlast) with hc | hc
    · exact absurd hc (by decide)
    · exact absurd hc (by decide)
  · simp [hbase, baseText]
  · simp [hbase, baseText]

/-- A parameter does not end in a star or a question mark. -/
lemma param_ne_suffix {index : Ordinal} (hindex : 0 ≤ index.value) (ofMethod : Bool)
    {suffix : String} (hsuffix : suffix = "*" ∨ suffix = "?") (front : String) :
    (Ty.param index ofMethod none).baseText ≠ front ++ suffix := by
  intro heq
  have hmem : ∀ c ∈ suffix.toList, c ∈ (Ty.param index ofMethod none).baseText.toList := by
    intro c hc
    rw [heq, String.toList_append]
    exact List.mem_append_right _ hc
  rcases hsuffix with rfl | rfl
  · exact absurd (param_chars hindex ofMethod '*' (hmem _ (by decide))) (by decide)
  · exact absurd (param_chars hindex ofMethod '?' (hmem _ (by decide))) (by decide)

/-- What ends in a star does not end in a question mark. -/
lemma star_ne_mark (front front' : String) : front ++ "*" ≠ front' ++ "?" := by
  intro heq
  have hlast := congrArg (fun text => text.toList.getLast?) heq
  simp at hlast

/-- The text of a parameter without a name determines it. -/
lemma param_eq {i j : Ordinal} (hi : 0 ≤ i.value) (hj : 0 ≤ j.value) {m n : Bool}
    (h : (Ty.param i m none).baseText = (Ty.param j n none).baseText) :
    Ty.param i m none = Ty.param j n none := by
  have hmark {i j : Ordinal} (hj : 0 ≤ j.value) : "!!" ++ i.text ≠ "!" ++ j.text := by
    intro heq
    have hmem : '!' ∈ j.text.toList := by
      have hlist := congrArg String.toList heq
      simp at hlist
      simp [← hlist]
    exact absurd (Ordinal.text_chars hj _ hmem) (by decide)
  cases m <;> cases n
  · rw [Ordinal.eq_of_text hi hj ((String.append_right_inj _).1 h)]
  · exact absurd h.symm (hmark hi)
  · exact absurd h (hmark hj)
  · rw [Ordinal.eq_of_text hi hj ((String.append_right_inj _).1 h)]

/-- Suffixed types whose bases have the same shape if they have the same text, have the same shape
if they have the same text. -/
lemma shape_eq_of_base (ht : t.Suffixed) (hu : u.Suffixed)
    (hbase : t.baseText = u.baseText → t.base.shape = u.base.shape)
    (h : t.suffixText = u.suffixText) :
    t.shape = u.shape ∧ t.layers.map Layer.shape = u.layers.map Layer.shape := by
  have hlist := congrArg String.toList h
  simp only [suffixText, String.toList_append, String.toList_join, List.flatMap_map] at hlist
  obtain ⟨hfront, hlayers⟩ := Layer.shape_eq_of_text ht.getLast?_baseText hu.getLast?_baseText
    ht.one_le_rank hu.one_le_rank hlist
  refine ⟨?_, hlayers⟩
  rw [shape_eq_foldr t, shape_eq_foldr u, hlayers, hbase (String.toList_inj.1 hfront)]

/-- The text of a suffixed type without the brackets of its own layers determines the shape of its
base.

**Proof sketch.** Induction on the type.  The last character says whether the base is a pointer, a
nullable or a parameter, and in front of a star or a question mark there is the text of a smaller
type. -/
lemma base_shape_eq (ht : t.Suffixed) (hu : u.Suffixed) (h : t.baseText = u.baseText) :
    t.base.shape = u.base.shape := by
  induction ht generalizing u with
  | @param index ofMethod hindex =>
    rw [← baseText_base u] at h
    rcases hu.base_cases with ⟨_, _, hindex', hbase⟩ | ⟨inner, _, hbase⟩ | ⟨inner, _, hbase⟩ <;>
      rw [hbase] at h ⊢
    · rw [param_eq hindex hindex' h, Ty.base]
      simp
    · exact absurd h (param_ne_suffix hindex ofMethod (.inl rfl) inner.suffixText)
    · exact absurd h (param_ne_suffix hindex ofMethod (.inr rfl) inner.suffixText)
  | @pointer referent hreferent ih =>
    rw [← baseText_base u] at h
    rcases hu.base_cases with ⟨_, m, hindex', hbase⟩ | ⟨inner, hinner, hbase⟩ |
      ⟨inner, _, hbase⟩ <;> rw [hbase] at h ⊢
    · exact absurd h.symm (param_ne_suffix hindex' m (.inl rfl) referent.suffixText)
    · have hshape := (hreferent.shape_eq_of_base hinner (ih hinner)
        ((String.append_left_inj _).1 h)).1
      rw [Ty.base, shape, shape, hshape]
      simp
    · exact absurd h (star_ne_mark referent.suffixText inner.suffixText)
  | @nullable underlying hunderlying ih =>
    rw [← baseText_base u] at h
    rcases hu.base_cases with ⟨_, m, hindex', hbase⟩ | ⟨inner, _, hbase⟩ |
      ⟨inner, hinner, hbase⟩ <;> rw [hbase] at h ⊢
    · exact absurd h.symm (param_ne_suffix hindex' m (.inr rfl) underlying.suffixText)
    · exact absurd h.symm (star_ne_mark inner.suffixText underlying.suffixText)
    · have hshape := (hunderlying.shape_eq_of_base hinner (ih hinner)
        ((String.append_left_inj _).1 h)).1
      rw [Ty.base, shape, shape, hshape]
      simp
  | array _ _ ih => exact ih hu h

/-- **The text of a suffixed type determines its shape** and that of its layers. -/
theorem shape_eq (ht : t.Suffixed) (hu : u.Suffixed) (h : t.suffixText = u.suffixText) :
    t.shape = u.shape ∧ t.layers.map Layer.shape = u.layers.map Layer.shape :=
  ht.shape_eq_of_base hu (ht.base_shape_eq hu) h

end Suffixed

end Ty

/-! ## Requests -/

namespace Renderer

/-- **Suffix notation is unambiguous.**  A type that is built from parameters without a name by
pointers, nullables and arrays has a text, the same over every graph.  It is the text of the
innermost element type with the brackets of the layers of the array behind it, outermost first.
These groups of brackets determine the number, the order and the ranks of the layers and the vector
flags of those of rank one, and so does the text as a whole: two types with the same text are the
same up to the vector flags of arrays of rank two or more.

**Proof sketch.** A text is read from its end.  Groups of brackets are cut off until there is none,
then a star or a question mark, and what is left is a smaller text of the same kind. -/
theorem render_suffixed {r : Renderer} (hr : r.session.isOpen = false) (g : Graph)
    (display : Display) {t : Ty} (ht : t.Suffixed) :
    (∃ front, (r.render g display (.type t.base none)).1 = .ok front ∧
      (r.render g display (.type t none)).1 =
        .ok (front ++ String.join (t.layers.map Layer.text))) ∧
    (∀ ls ls' : List Layer, (∀ l ∈ ls, 1 ≤ l.rank) → (∀ l ∈ ls', 1 ≤ l.rank) →
      String.join (ls.map Layer.text) = String.join (ls'.map Layer.text) →
      ls.map Layer.shape = ls'.map Layer.shape) ∧
    ∀ (r' : Renderer) (g' : Graph) (display' : Display) (u : Ty), r'.session.isOpen = false →
      u.Suffixed →
      (r.render g display (.type t none)).1 = (r'.render g' display' (.type u none)).1 →
      t.shape = u.shape ∧ t.layers.map Layer.shape = u.layers.map Layer.shape := by
  have htext {r : Renderer} (hr : r.session.isOpen = false) (g : Graph) (display : Display) {t : Ty}
      (ht : t.Suffixed) : (r.render g display (.type t none)).1 = .ok t.suffixText := by
    rw [render_fst hr]
    exact ht.finish_renderTy _ _ display.catalog
  refine ⟨?base, fun ls ls' hranks hranks' h => ?groups, fun r' g' display' u hr' hu h => ?types⟩
  case base =>
    refine ⟨t.baseText, ?_, htext hr g display ht⟩
    rw [htext hr g display ht.base, t.suffixText_base]
  case groups =>
    have hlist : [] ++ ls.flatMap (fun l => l.text.toList) =
        [] ++ ls'.flatMap fun l => l.text.toList := by
      simpa only [String.toList_join, List.flatMap_map, List.nil_append] using
        congrArg String.toList h
    exact (Layer.shape_eq_of_text (by simp) (by simp) hranks hranks' hlist).2
  case types =>
    rw [htext hr g display ht, htext hr' g' display' hu, Except.ok.injEq] at h
    exact ht.shape_eq hu h

/-- An array of rank two of arrays of rank one that are no vectors: its text does not depend on its
own vector flag, and shows that of its elements. -/
theorem render_suffixed_layers :
    let element : Ty := .array (.pointer (.param (.number 0) true none)) (.number 1) false
    let t : Ty := .array element (.number 2) true
    let u : Ty := .array element (.number 2) false
    let g : Graph := .empty
    ({} : Renderer).session.isOpen = false ∧ t.Suffixed ∧ u.Suffixed ∧
      (({} : Renderer).render g {} (.type t none)).1 = .ok "!!0*[,][*]" ∧
      (({} : Renderer).render g {} (.type u none)).1 = .ok "!!0*[,][*]" ∧
      t.shape = u.shape ∧ t.layers.map Layer.shape = u.layers.map Layer.shape := by
  intro element t u g
  have helement : element.Suffixed := .array (.pointer (.param (by decide))) (by decide)
  have ht : t.Suffixed := .array helement (by decide)
  have hu : u.Suffixed := .array helement (by decide)
  have htext : (({} : Renderer).render g {} (.type t none)).1 = .ok "!!0*[,][*]" := by
    decide +kernel
  have htext' : (({} : Renderer).render g {} (.type u none)).1 = .ok "!!0*[,][*]" := by
    decide +kernel
  have hshape := (render_suffixed rfl g {} ht).2.2 {} g {} u rfl hu (htext.trans htext'.symm)
  exact ⟨rfl, ht, hu, htext, htext', hshape⟩

end Renderer

end DisplayNames
