import DisplayNames.Proofs.ExplicitIds

/-!
# Paths of declarations and their qualified names

A declaration has its dotted name twice.  The walk builds its path from the outside in, and the path
is a key of the registry.  The table of nice names asks for the qualified name, which is read off
the parents in the graph, from the inside out.

Both are made of the names of the declaration and of what encloses it.  But the walk takes an empty
path for that of the root, so it leaves out the dot behind empty names as long as no other name has
come.  The two are the same for a top-level declaration and whenever the outermost enclosing name is
not empty.  They are different for everything declared inside a top-level declaration with an empty
name.

## Main definitions

* `DisplayNames.Graph.declaredNames` — the names of a declaration and of what encloses it.

## Main results

* `DisplayNames.Graph.Rooted.declaredNames_eq` — a member adds its name to those of its parent.
* `DisplayNames.Document.path_of_placed` — the path of a place in terms of the declared names.
* `DisplayNames.Document.path_eq_qualifiedName` — when the path is the qualified name.
-/

set_option relaxedAutoImplicit false
set_option autoImplicit false

namespace DisplayNames

/-! ## The names around a declaration -/

/-- The names of a declaration and of what encloses it, from the outside in.  A namespace that
nothing encloses has none; a symbol without a name has an empty one. -/
def Graph.declaredNames (g : Graph) (id : SymId) : List String :=
  (((g.chain id).takeWhile fun (_, s) => !s.isTopNamespace).map
    fun (_, s) => s.name.getD "").reverse

/-- The qualified name joins the declared names with dots. -/
lemma Graph.qualifiedName_eq (g : Graph) (id : SymId) :
    g.qualifiedName id = ".".intercalate (g.declaredNames id) := rfl

section

variable {g : Graph} (h : g.Rooted)
include h

/-- A member adds its name to those of its parent. -/
theorem Graph.Rooted.declaredNames_eq {id parent : SymId} {s : Symbol} (hs : g.find? id = some s)
    (hparent : s.parent = some parent) :
    g.declaredNames id = g.declaredNames parent ++ [s.name.getD ""] := by
  have hinner : s.isTopNamespace = false := by simp [Symbol.isTopNamespace, hparent]
  simp [declaredNames, h.chain_eq hs hparent, hinner]

/-- Nothing encloses the root. -/
lemma Graph.Rooted.declaredNames_root : g.declaredNames .root = [] := by
  have hsize : g.size ≠ 0 := Nat.ne_of_gt (Nat.zero_lt_of_lt (h.depth h.root_symbol))
  obtain ⟨bound, hbound⟩ := Nat.exists_eq_succ_of_ne_zero hsize
  simp [declaredNames, chain, hbound, chainUpTo, h.root_symbol, Symbol.isTopNamespace, Symbol.kind,
    Detail.kind]

end

/-! ## Dotted texts -/

/-- A dotted text whose first part is not empty is not empty. -/
lemma intercalate_ne_empty {name : String} (hname : name ≠ "") (rest : List String) :
    ".".intercalate (name :: rest) ≠ "" := by
  cases rest with
  | nil => rwa [String.intercalate_singleton]
  | cons next rest =>
    rw [String.intercalate_cons_cons]
    intro hempty
    have hparts := String.append_eq_empty_iff.1 hempty
    exact hname (String.append_eq_empty_iff.1 hparts.1).1

/-- A text without its empty parts in front is not longer. -/
lemma length_intercalate_dropWhile (names : List String) :
    (".".intercalate (names.dropWhile (· = ""))).length ≤ (".".intercalate names).length := by
  induction names with
  | nil => exact Nat.le_refl _
  | cons name rest ih =>
    by_cases hname : name = ""
    · rw [List.dropWhile_cons_of_pos (by simpa using hname)]
      refine Nat.le_trans ih ?_
      cases rest with
      | nil => simp
      | cons next rest =>
        simp only [String.intercalate_cons_cons, String.length_append]
        omega
    · have hkept : (name :: rest).dropWhile (· = "") = name :: rest :=
        List.dropWhile_cons_of_neg (by simpa using hname)
      exact Nat.le_of_eq (by rw [hkept])

/-- A text is the same without its empty parts in front exactly if it has one part at most, or the
first part is not empty.

**Proof sketch.** If the first part is empty and another one follows, dropping it takes a dot away,
so the text gets shorter.  In all other cases nothing is dropped that shows. -/
lemma intercalate_dropWhile_eq_iff (names : List String) :
    ".".intercalate (names.dropWhile (· = "")) = ".".intercalate names ↔
      names.tail = [] ∨ names.head? ≠ some "" := by
  cases names with
  | nil => simp
  | cons name rest =>
    by_cases hname : name = ""
    · subst hname
      cases rest with
      | nil => simp
      | cons next rest =>
        -- a dot is missing at least
        have hle := length_intercalate_dropWhile (next :: rest)
        have hlt : (".".intercalate ((next :: rest).dropWhile (· = ""))).length <
            (".".intercalate ("" :: next :: rest)).length := by
          rw [String.intercalate_cons_cons, String.length_append]
          simp only [String.empty_append]
          have hdot : (".").length = 1 := rfl
          omega
        rw [List.dropWhile_cons_of_pos (by simp)]
        simp only [List.tail_cons, reduceCtorEq, List.head?_cons, ne_eq, not_true_eq_false, or_self,
          iff_false]
        exact fun heq => absurd (congrArg String.length heq) (Nat.ne_of_lt hlt)
    · rw [List.dropWhile_cons_of_neg (by simpa using hname)]
      simp [hname]

/-- A name that is joined to a text without its empty parts in front is one more part of it. -/
lemma joinPath_intercalate (names : List String) (name : String) :
    Document.joinPath (".".intercalate (names.dropWhile (· = ""))) name =
      ".".intercalate ((names ++ [name]).dropWhile (· = "")) := by
  induction names with
  | nil =>
    by_cases hname : name = ""
    · subst hname
      rfl
    · rw [List.nil_append, List.dropWhile_cons_of_neg (by simpa using hname),
        String.intercalate_singleton]
      rfl
  | cons first rest ih =>
    by_cases hfirst : first = ""
    · rw [List.cons_append, List.dropWhile_cons_of_pos (by simpa using hfirst),
        List.dropWhile_cons_of_pos (by simpa using hfirst), ih]
    · rw [List.cons_append, List.dropWhile_cons_of_neg (by simpa using hfirst),
        List.dropWhile_cons_of_neg (by simpa using hfirst), Document.joinPath,
        if_neg (intercalate_ne_empty hfirst rest), ← List.cons_append,
        String.intercalate_append_of_ne_nil (List.cons_ne_nil _ _) (List.cons_ne_nil _ _),
        String.intercalate_singleton]

namespace Document

/-! ## The paths of a walk -/

/-- A contribution is named as its declaration says, and its parent is the symbol at its place. -/
lemma Heads.name_parent {place : Place} {copy : Nat} {fields : List (String × Json)}
    {d : Declared} {inside : Option Place} (h : Heads place copy fields d inside) :
    d.symbol.name = some (memberName (.obj fields)) ∧ d.symbol.parent = some place.id := by
  cases h with
  | space hname | aggregate _ _ _ hname | method _ _ hname | property _ _ hname | field hname
    | event _ _ hname => exact ⟨hname ▸ rfl, rfl⟩

/-- The place that a contribution opens has the path of the contribution. -/
lemma Heads.inside_path {place : Place} {copy : Nat} {fields : List (String × Json)}
    {d : Declared} {inside : Place} (h : Heads place copy fields d (some inside)) :
    inside.path = d.path := by
  cases h <;> rfl

section

variable {g : Graph} {all : List Declared} (h : Holds g all)
include h

/-- A declaration adds its name to those of its place. -/
lemma Holds.declaredNames_eq {place : Place} {copy : Nat} {fields : List (String × Json)}
    {d : Declared} {inside : Option Place} (hheads : Heads place copy fields d inside)
    (hd : d ∈ all) :
    g.declaredNames d.id = g.declaredNames place.id ++ [memberName (.obj fields)] := by
  obtain ⟨s, hs, hu⟩ := h.find?_of_declared hd (List.mem_cons_self (a := (_, _)))
  obtain ⟨hname, hparent⟩ := hheads.name_parent
  rw [← hu] at hname hparent
  have hname : s.name = some (memberName (.obj fields)) := hname
  rw [h.rooted.declaredNames_eq hs hparent, hname, Option.getD_some]

/-- **The path of a place is made of the declared names without the empty ones in front.**

**Proof sketch.** By induction on how the walk reaches the place.  The path of a member is joined
from that of its place and its name, and an empty path, whose names so far are all empty, is dropped
along with its dot. -/
theorem path_of_placed {place : Place} (hplaced : Placed all place) :
    place.path = ".".intercalate ((g.declaredNames place.id).dropWhile (· = "")) := by
  induction hplaced with
  | top => rw [Place.top, h.rooted.declaredNames_root]; rfl
  | inside _ hheads hd ih =>
    rw [hheads.inside_path, hheads.inside_id, hheads.path_eq, ih, joinPath_intercalate,
      h.declaredNames_eq hheads hd]

/-- The path of a declaration is made of its declared names without the empty ones in front. -/
lemma Holds.path_eq {d : Declared} (hd : d ∈ all) :
    d.path = ".".intercalate ((g.declaredNames d.id).dropWhile (· = "")) := by
  obtain ⟨place, copy, fields, inside, hplaced, hheads⟩ := h.located d hd
  rw [hheads.path_eq, path_of_placed h hplaced, joinPath_intercalate, h.declaredNames_eq hheads hd]

end

/-- **When the path of a declaration is its qualified name.**  Every declaration is registered under
its path, which belongs to it unless an earlier declaration has it as a key.  The path joins the
declared names without the empty ones in front, the qualified name joins all of them.  So they are
the same exactly if the declaration is a top-level one or its outermost enclosing name is not
empty.

**Proof sketch.** The path was found in `path_of_placed`, by induction on how the walk reaches a
declaration.  To drop the empty names in front takes a dot away for each of them that another name
follows, so it changes the text unless there is no such name. -/
theorem path_eq_qualifiedName {json : Json} {doc : Document} (hdoc : ofJson json = .ok doc)
    {front back : List Declared} {d : Declared} (hlisted : listed json = front ++ d :: back) :
    (d.path ∉ front.flatMap Declared.keys → doc.registry.get? d.path = some d.id) ∧
    d.path = ".".intercalate ((doc.graph.declaredNames d.id).dropWhile (· = "")) ∧
    doc.graph.qualifiedName d.id = ".".intercalate (doc.graph.declaredNames d.id) ∧
    (d.path = doc.graph.qualifiedName d.id ↔
      (doc.graph.declaredNames d.id).tail = [] ∨
        (doc.graph.declaredNames d.id).head? ≠ some "") := by
  obtain ⟨fields, rfl, declarations, signed, items, h⟩ := stages_of_ofJson hdoc
  rw [h.listed_eq] at hlisted
  have hpath := h.holds.path_eq (d := d) (hlisted ▸ by simp)
  refine ⟨get?_path_of_free (hlisted ▸ h.registry_eq), hpath, rfl, ?_⟩
  rw [hpath, Graph.qualifiedName_eq]
  exact intercalate_dropWhile_eq_iff _

/-- A constructor in a class with a dot in its name in a namespace without a name, one level below
the top: the empty name and all dots are in the path as in the qualified name. -/
theorem path_eq_qualifiedName_inner :
    let json : Json := .obj [("declarations", .arr [.obj [("kind", .str "namespace"),
      ("name", .str "N"), ("members", .arr [.obj [("kind", .str "namespace"), ("name", .str ""),
        ("members", .arr [.obj [("kind", .str "class"), ("name", .str "C.D"),
          ("members", .arr [.obj [("kind", .str "method"), ("constructor", .bool true)]])]])]])]])]
    ∃ doc front d, ofJson json = .ok doc ∧ listed json = front ++ d :: [] ∧
      doc.graph.declaredNames d.id = ["N", "", "C.D", ".ctor"] ∧
      doc.registry.get? "N..C.D..ctor" = some d.id ∧ d.path = doc.graph.qualifiedName d.id := by
  intro json
  obtain ⟨doc, n, empty, c, d, hdoc, hlisted, hpath, hnames, hfree⟩ :
      ∃ doc n empty c d, ofJson json = .ok doc ∧ listed json = [n, empty, c] ++ d :: [] ∧
        d.path = "N..C.D..ctor" ∧ doc.graph.declaredNames d.id = ["N", "", "C.D", ".ctor"] ∧
        d.path ∉ [n, empty, c].flatMap Declared.keys :=
    ⟨_, _, _, _, _, rfl, rfl, rfl, rfl, by decide⟩
  obtain ⟨hget, _, _, hiff⟩ := path_eq_qualifiedName hdoc hlisted
  exact ⟨doc, _, d, hdoc, hlisted, hnames, hpath ▸ hget hfree, hiff.2 (.inr (by rw [hnames]; simp))⟩

/-- A class in a top-level namespace with an empty name: its path is its name alone, its qualified
name begins with a dot and is no key. -/
theorem path_ne_qualifiedName :
    let json : Json := .obj [("declarations", .arr [.obj [("kind", .str "namespace"),
      ("name", .str ""), ("members", .arr [.obj [("kind", .str "class"), ("name", .str "A")]])]])]
    ∃ doc n a, ofJson json = .ok doc ∧ listed json = [n, a] ∧ a.path = "A" ∧
      doc.registry.get? "A" = some a.id ∧ doc.graph.qualifiedName a.id = ".A" ∧
      doc.registry.get? ".A" = none ∧ a.path ≠ doc.graph.qualifiedName a.id := by
  intro json
  exact ⟨_, _, _, rfl, rfl, rfl, rfl, rfl, rfl, by decide⟩

end Document

end DisplayNames
