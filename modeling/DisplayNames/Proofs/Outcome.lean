import DisplayNames.Proofs.TypeTraversal
import DisplayNames.Render.Type

/-!
# Outcomes of renderings

What a rendering comes to depends on its parts in order: it stops where its first stopping part
stops, and its text is that of its parts in a row.

Two renderings are compared by congruences, relations that are kept by putting renderings in a row.
Types are rendered by such rows, so a congruence between two ways of displaying the symbols around
a declaration carries over to the types that use them.

## Main definitions

* `DisplayNames.Rendering.Congruence` — relations that are kept by `>>`.
* `DisplayNames.Rendering.Refines` — the first rendering is the second one, or did not end.
* `DisplayNames.Rendering.Agrees` — the renderings are the same, or neither ends.

## Main results

* `DisplayNames.Rendering.stop_andThen`, `DisplayNames.Rendering.finish_andThen` — the outcome of
  two renderings in a row.
* `DisplayNames.renderTy_congr` — congruences carry over to types.
-/

set_option relaxedAutoImplicit false
set_option autoImplicit false

namespace DisplayNames

namespace Rendering

/-! ## Where a rendering stops -/

@[simp] lemma stop_empty : empty.stop = none := rfl

@[simp] lemma stop_literal (text : String) : (literal text).stop = none := rfl

@[simp] lemma stop_phrase (id : MessageId) : (phrase id).stop = none := rfl

@[simp] lemma stop_examine (id : SymId) : (examine id).stop = none := rfl

@[simp] lemma stop_stopped (fault : Fault) : (stopped fault).stop = some fault := rfl

@[simp] lemma stop_fail (error : RenderError) : (fail error).stop = some (.broken error) := rfl

/-- A rendering in front of another one decides where they stop, unless it goes through. -/
@[simp] theorem stop_andThen (a b : Rendering) : (a >> b).stop = a.stop.or b.stop := by
  obtain ⟨pieces, examined, stop⟩ := a
  change (andThen _ _).stop = _
  cases stop <;> rfl

/-- What comes behind a rendering that stopped does not count. -/
lemma andThen_of_stop {a : Rendering} {fault : Fault} (h : a.stop = some fault)
    (b : Rendering) : (a >> b) = a := by
  change andThen _ _ = _
  rw [andThen, h]

/-- Several things go through if each of them does. -/
lemma stop_separated {α : Type} (separator : String) (render : α → Rendering) {items : List α}
    (h : ∀ item ∈ items, (render item).stop = none) :
    (separated separator render items).stop = none := by
  induction items with
  | nil => rfl
  | cons item rest ih =>
    have hrest := ih fun item hi => h item (List.mem_cons_of_mem _ hi)
    have hitem := h item List.mem_cons_self
    cases rest with
    | nil => exact hitem
    | cons next rest => simp [separated, hitem, hrest]

/-! ## Texts -/

section

variable (catalog : Catalog)

@[simp] lemma finish_empty : empty.finish catalog = .ok "" := rfl

@[simp] lemma finish_literal (text : String) : (literal text).finish catalog = .ok text := by
  simp [finish, literal, parts, Piece.text, String.join]

@[simp] lemma finish_examine (id : SymId) : (examine id).finish catalog = .ok "" := rfl

/-- The text of two renderings in a row is that of the first one and then that of the second; the
first one that stops decides. -/
theorem finish_andThen (a b : Rendering) :
    (a >> b).finish catalog = (do
      let front ← a.finish catalog
      let back ← b.finish catalog
      return front ++ back) := by
  obtain ⟨pieces, examined, stop⟩ := a
  change (andThen _ _).finish _ = _
  cases stop with
  | some fault => rfl
  | none =>
    obtain ⟨pieces', examined', stop'⟩ := b
    cases stop' with
    | some fault => rfl
    | none =>
      simp [andThen, finish, parts, bind, Except.bind, pure, Except.pure]

/-- The text of several things is that of each of them, with the separator between any two; the
first one that stops decides. -/
lemma finish_separated {α : Type} (separator : String) (render : α → Rendering)
    (items : List α) :
    (separated separator render items).finish catalog = (do
      let texts ← items.mapM fun item => (render item).finish catalog
      return separator.intercalate texts) := by
  induction items with
  | nil => rfl
  | cons item rest ih =>
    cases rest with
    | nil =>
      simp only [separated, List.mapM_cons, List.mapM_nil, pure_bind, bind_assoc,
        String.intercalate_singleton, bind_pure]
    | cons next rest =>
      rw [separated, finish_andThen, finish_andThen, ih, finish_literal]
      simp only [List.mapM_cons, bind_assoc, pure_bind, String.intercalate_cons_cons,
        String.append_assoc]
      rfl

/-- The text of what stands in angle brackets. -/
lemma finish_angled {α : Type} (items : List α) (inside : Unit → Rendering) :
    (angled items inside).finish catalog =
      if items.isEmpty then .ok "" else (do
        let text ← (inside ()).finish catalog
        return "<" ++ text ++ ">") := by
  unfold angled
  split
  · rfl
  · rw [finish_andThen, finish_andThen, finish_literal, finish_literal]
    cases (inside ()).finish catalog <;>
      simp [bind, Except.bind, pure, Except.pure, String.append_assoc]

end

/-- A rendering gives a text exactly if it goes through. -/
lemma finish_eq_ok_iff (r : Rendering) (catalog : Catalog) (text : String) :
    r.finish catalog = .ok text ↔ r.stop = none ∧ String.join (r.parts catalog) = text := by
  unfold finish
  cases r.stop <;> simp

/-- A rendering gives a fault exactly if it stops there. -/
lemma finish_eq_error_iff (r : Rendering) (catalog : Catalog) (fault : Fault) :
    r.finish catalog = .error fault ↔ r.stop = some fault := by
  unfold finish
  cases r.stop <;> simp

/-- Two renderings in a row give a text exactly if each of them does. -/
lemma finish_andThen_eq_ok {a b : Rendering} {catalog : Catalog} {text : String} :
    (a >> b).finish catalog = .ok text ↔
      ∃ front back, a.finish catalog = .ok front ∧ b.finish catalog = .ok back ∧
        text = front ++ back := by
  rw [finish_andThen]
  cases a.finish catalog <;> cases b.finish catalog <;>
    simp [bind, Except.bind, pure, Except.pure, eq_comm]

/-! ## Congruences -/

/-- A relation between renderings that is kept by putting renderings in a row. -/
structure Congruence (R : Rendering → Rendering → Prop) : Prop where
  refl : ∀ a, R a a
  andThen : ∀ {a a' b b'}, R a a' → R b b' → R (a >> b) (a' >> b')

/-- The first rendering is the second one unless it did not end. -/
def Refines (a b : Rendering) : Prop := a.stop = some .endless ∨ a = b

/-- The renderings are the same, or neither of them ends. -/
def Agrees (a b : Rendering) : Prop :=
  a = b ∨ a.stop = some .endless ∧ b.stop = some .endless

/-- Equality is kept by rows. -/
lemma Congruence.eq : Congruence (· = ·) where
  refl _ := rfl
  andThen := by
    rintro a _ b _ rfl rfl
    rfl

/-- Refinement is kept by rows. -/
lemma Refines.congruence : Congruence Refines where
  refl a := .inr rfl
  andThen := by
    rintro a a' b b' (ha | rfl) hb
    · exact .inl (by rw [andThen_of_stop ha, ha])
    · rcases hb with hb | rfl
      · cases hs : a.stop with
        | none => exact .inl (by simp [hs, hb])
        | some fault =>
          exact .inr (by rw [andThen_of_stop hs, andThen_of_stop hs])
      · exact .inr rfl

/-- Agreement is kept by rows. -/
lemma Agrees.congruence : Congruence Agrees where
  refl a := .inl rfl
  andThen := by
    rintro a a' b b' (rfl | ⟨ha, ha'⟩) hb
    · rcases hb with rfl | ⟨hb, hb'⟩
      · exact .inl rfl
      · cases hs : a.stop with
        | none => exact .inr (by simp [hs, hb, hb'])
        | some fault =>
          exact .inl (by rw [andThen_of_stop hs, andThen_of_stop hs])
    · exact .inr (by rw [andThen_of_stop ha, andThen_of_stop ha']; exact ⟨ha, ha'⟩)

/-- Renderings that agree have the same outcome. -/
lemma Agrees.finish_eq {a b : Rendering} (h : Agrees a b) (catalog : Catalog) :
    a.finish catalog = b.finish catalog := by
  rcases h with rfl | ⟨ha, hb⟩
  · rfl
  · rw [(finish_eq_error_iff a catalog .endless).2 ha,
      (finish_eq_error_iff b catalog .endless).2 hb]

section

variable {R : Rendering → Rendering → Prop} (hR : Congruence R)
include hR

/-- A congruence between the renderings of single things carries over to several of them. -/
lemma Congruence.separated {α : Type} {f f' : α → Rendering} (separator : String)
    {items : List α} (h : ∀ item ∈ items, R (f item) (f' item)) :
    R (Rendering.separated separator f items) (Rendering.separated separator f' items) := by
  induction items with
  | nil => exact hR.refl _
  | cons item rest ih =>
    have hitem := h item List.mem_cons_self
    have hrest := ih fun item hi => h item (List.mem_cons_of_mem _ hi)
    cases rest with
    | nil => exact hitem
    | cons next rest => exact hR.andThen hitem (hR.andThen (hR.refl _) hrest)

/-- The same for what stands in angle brackets. -/
lemma Congruence.angled {α : Type} (items : List α) (inside inside' : Unit → Rendering)
    (h : R (inside ()) (inside' ())) :
    R (DisplayNames.angled items inside) (DisplayNames.angled items inside') := by
  unfold DisplayNames.angled
  split
  · exact hR.refl _
  · exact hR.andThen (hR.refl _) (hR.andThen h (hR.refl _))

/-- The same for parameters. -/
lemma Congruence.paramTypes {f f' : Ty → Rendering} (paramArray : Bool) {ts : List Ty}
    (h : ∀ t ∈ ts, R (f t) (f' t)) :
    R (DisplayNames.paramTypes f paramArray ts) (DisplayNames.paramTypes f' paramArray ts) := by
  induction ts with
  | nil => exact hR.refl _
  | cons t rest ih =>
    have ht := h t List.mem_cons_self
    have hrest := ih fun t ht => h t (List.mem_cons_of_mem _ ht)
    cases rest with
    | nil =>
      unfold DisplayNames.paramTypes
      split
      · exact hR.andThen (hR.refl _) ht
      · exact ht
    | cons next rest => exact hR.andThen ht (hR.andThen (hR.refl _) hrest)

/-- The same for the parameters of a signature. -/
lemma Congruence.paramList {f f' : Ty → Rendering} {ts : List Ty} (varargs paramArray : Bool)
    (h : ∀ t ∈ ts, R (f t) (f' t)) :
    R (DisplayNames.paramList f ts varargs paramArray)
      (DisplayNames.paramList f' ts varargs paramArray) :=
  hR.andThen (hR.paramTypes paramArray h) (hR.refl _)

end

end Rendering

/-! ## Types -/

section

variable (scene : Scene) {R : Rendering → Rendering → Prop} (hR : Rendering.Congruence R)
  {around around' : Option SymId → Rendering} (h : ∀ parent, R (around parent) (around' parent))
include hR h

/-- A congruence between two ways of displaying what is around a declaration carries over to types
without their own brackets and to instantiations.

**Proof sketch.** Induction over types and instantiations.  Every text is put together from texts
of parts, from texts that are the same on both sides, and from what is around declarations, for
which the congruence is assumed. -/
lemma renderBase_congr :
    (∀ t, R (renderBase scene around t) (renderBase scene around' t)) ∧
      ∀ inst, R (renderInst scene around inst) (renderInst scene around' inst) := by
  have hargs {ts : List Ty} (hts : ∀ t ∈ ts, R (renderBase scene around t)
      (renderBase scene around' t)) :
      R (renderArgs scene around ts) (renderArgs scene around' ts) := by
    rw [renderArgs_eq_separated, renderArgs_eq_separated]
    exact hR.separated "," fun t ht => hR.andThen (hts t ht) (hR.refl _)
  apply Ty.induction_parts
  case error =>
    intro parent space name args hp has
    unfold renderBase errorText
    cases name with
    | none => cases parent <;> cases space <;> cases args <;> exact hR.refl _
    | some name =>
      cases args with
      | none => cases parent <;> cases space <;> exact hR.refl _
      | some args =>
        have hrest := hR.andThen (hR.refl (nameText (some name)))
          (hR.angled args (fun _ => renderArgs scene around args)
            (fun _ => renderArgs scene around' args) (hargs (has args rfl)))
        cases parent with
        | some t => exact hR.andThen (hR.andThen (hp t rfl) (hR.refl _)) hrest
        | none =>
          cases space with
          | none => exact hR.refl _
          | some space => exact hR.andThen (h _) hrest
  case inst =>
    intro decl args outer has ho
    unfold renderInst
    cases scene.niceName? decl with
    | some nice => exact hR.refl _
    | none =>
      have hrest := hR.andThen (hR.refl (nameText ((scene.graph.find? decl).bind Symbol.name)))
        (hR.angled args (fun _ => renderArgs scene around args)
          (fun _ => renderArgs scene around' args) (hargs has))
      cases outer with
      | none => exact hR.andThen (h _) hrest
      | some outer => exact hR.andThen (hR.andThen (ho outer rfl) (hR.refl _)) hrest
  case aggregate => exact fun inst hinst => hinst
  case array => exact fun element _ _ helement => helement
  case pointer | nullable =>
    exact fun t ht => hR.andThen ht (hR.refl _)
  case byRef => exact fun t _ ht => hR.andThen (hR.refl _) (hR.andThen ht (hR.refl _))
  all_goals intros; exact hR.refl _

/-- The same for types. -/
theorem renderTy_congr (t : Ty) : R (renderTy scene around t) (renderTy scene around' t) :=
  hR.andThen ((renderBase_congr scene hR h).1 t) (hR.refl _)

end

end DisplayNames
