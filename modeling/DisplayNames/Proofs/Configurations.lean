import DisplayNames.Config
import DisplayNames.Proofs.Declarations
import DisplayNames.Proofs.DistinctKeys
import Mathlib.Data.Set.List

/-!
# Configurations

Which values are configurations, and what they stand for.  Reading a section of a configuration
undoes writing it, so the checks of the reader together accept exactly the objects of the documented
form; and what is looked up behind the merging with the built-in tables is the configured text, if
there is one, and otherwise the built-in one, unless the built-in nice names are dropped.

## Main definitions

* `DisplayNames.Json.section?` — the entries of a field that holds an object.
* `DisplayNames.Json.textIn?` — a text in such a field.
* `DisplayNames.Config.Readable` — the fields of a configuration.

## Main results

* `DisplayNames.Config.readMessages_eq_ok`, `DisplayNames.Config.readNiceNames_eq_ok` — reading a
  section undoes writing it.
* `DisplayNames.Config.ofJson_obj_eq_ok` — what is read from an object.
* `DisplayNames.Config.display_configured` — which values are configurations and what they stand
  for.
-/

set_option relaxedAutoImplicit false
set_option autoImplicit false

namespace DisplayNames

/-! ## Keys of phrases -/

/-- A key is that of the phrase that is found under it. -/
lemma MessageId.ofKey?_eq_some {key : String} {id : MessageId} :
    ofKey? key = some id ↔ id.key = key := by
  constructor
  · intro h
    simpa using List.find?_some h
  · rintro rfl
    cases id <;> rfl

/-- Different phrases have different keys. -/
lemma MessageId.key_injective {a b : MessageId} (h : a.key = b.key) : a = b :=
  Option.some.inj ((ofKey?_eq_some.2 rfl).symm.trans (ofKey?_eq_some.2 h.symm))

/-! ## Sections -/

namespace Json

/-- The entries of a field that holds an object; an absent field has none. -/
def section? (fields : List (String × Json)) (name : String) : Option (List (String × Json)) :=
  match Table.get? fields name with
  | none => some []
  | some (.obj entries) => some entries
  | some _ => none

/-- The text under a key in a field that holds an object. -/
def textIn? (fields : List (String × Json)) (name key : String) : Option String :=
  ((section? fields name).bind (Table.get? · key)).bind fun
    | .str text => some text
    | _ => none

/-- A text in a section whose entries are those of a table of texts. -/
lemma textIn?_of_section {κ : Type} [DecidableEq κ] {f : κ → String}
    (hf : ∀ a b, f a = f b → a = b) {fields : List (String × Json)} {name : String}
    {t : Table κ String} (h : section? fields name = some (t.map fun e => (f e.1, .str e.2)))
    (key : κ) : textIn? fields name (f key) = t.get? key := by
  rw [textIn?, h, Option.bind_some, Table.get?_map_key hf]
  cases t.get? key <;> rfl

/-- The sections of a value with distinct keys have distinct keys. -/
lemma DistinctKeys.section? {fields entries : List (String × Json)} {name : String}
    (h : (Json.obj fields).DistinctKeys) (hentries : Json.section? fields name = some entries) :
    (entries.map Prod.fst).Nodup := by
  obtain ⟨_, hvalues⟩ := distinctKeys_obj_iff.1 h
  unfold Json.section? at hentries
  split at hentries
  · obtain rfl : [] = entries := Option.some.inj hentries
    exact List.nodup_nil
  · rename_i hget
    obtain rfl := Option.some.inj hentries
    exact (distinctKeys_obj_iff.1 (hvalues _ (Table.mem_of_get? hget))).1
  · cases hentries

end Json

namespace Config

/-- **Reading the phrases undoes writing them**, each under its key.

**Proof sketch.** Induction on what is read, and on the phrases that are written.  A key of a
phrase is read as that phrase, and no two phrases have one key. -/
theorem readMessages_eq_ok {entries : List (String × Json)} {messages : List (MessageId × String)} :
    readMessages entries = .ok messages ↔ entries = messages.map fun e => (e.1.key, .str e.2) := by
  constructor
  · intro h
    induction entries generalizing messages with
    | nil =>
      cases h
      rfl
    | cons e rest ih =>
      obtain ⟨key, value⟩ := e
      unfold readMessages at h
      split at h
      · cases h
      · rename_i id text hkey
        obtain ⟨more, hmore, rfl⟩ := map_eq_ok.1 h
        rw [List.map_cons, ← ih hmore, MessageId.ofKey?_eq_some.1 hkey]
      · cases h
  · rintro rfl
    induction messages with
    | nil => rfl
    | cons first more ih =>
      have hkey : MessageId.ofKey? first.1.key = some first.1 := MessageId.ofKey?_eq_some.2 rfl
      simp only [List.map_cons, readMessages, hkey]
      exact map_eq_ok.2 ⟨more, ih, rfl⟩

/-- **Reading the nice names undoes writing them.**

**Proof sketch.** Induction on what is read, and on the names that are written.  An entry that is
not a text is rejected. -/
theorem readNiceNames_eq_ok {entries : List (String × Json)} {names : Table String String} :
    readNiceNames entries = .ok names ↔ entries = names.map fun e => (e.1, .str e.2) := by
  constructor
  · intro h
    induction entries generalizing names with
    | nil =>
      cases h
      rfl
    | cons e rest ih =>
      obtain ⟨path, value⟩ := e
      cases value with
      | str name =>
        obtain ⟨more, hmore, rfl⟩ := map_eq_ok.1 h
        rw [List.map_cons, ← ih hmore]
      | _ => cases h
  · rintro rfl
    induction names with
    | nil => rfl
    | cons first more ih => exact map_eq_ok.2 ⟨more, ih, rfl⟩

/-! ## Configurations -/

/-- A section is read if it holds an object. -/
def readSection {α : Type} (error : ConfigError)
    (read : List (String × Json) → Except ConfigError α) (fields : List (String × Json))
    (name : String) : Except ConfigError α :=
  match Json.section? fields name with
  | none => .error error
  | some entries => read entries

/-- The flag that drops the built-in nice names; an absent one is not set. -/
def readFlag (fields : List (String × Json)) : Except ConfigError Bool :=
  match Json.fieldD fields "replace_nice_names" (.bool false) with
  | .bool replace => .ok replace
  | _ => .error .replaceNotBoolean

/-- A computation that goes on after each form of a field goes on after the section. -/
lemma readSection_bind {α β : Type} (error : ConfigError)
    (read : List (String × Json) → Except ConfigError α) {absent : α} (hread : read [] = .ok absent)
    (fields : List (String × Json)) (name : String) (rest : α → Except ConfigError β) :
    (match Table.get? fields name with
      | none => pure absent >>= rest
      | some (.obj entries) => read entries >>= rest
      | some _ => throw error >>= rest) = readSection error read fields name >>= rest := by
  unfold readSection Json.section?
  cases Table.get? fields name with
  | none => exact (congrArg (· >>= rest) hread).symm
  | some value => cases value <;> rfl

/-- An object without unknown keys is read section by section. -/
lemma ofJson_obj_eq {fields : List (String × Json)} (h : ∀ e ∈ fields, e.1 ∈ knownKeys) :
    ofJson (.obj fields) = do
      let messages ← readSection .messagesNotObject readMessages fields "messages"
      let niceNames ← readSection .niceNamesNotStrings readNiceNames fields "nice_names"
      let replace ← readFlag fields
      return ⟨messages, niceNames, replace⟩ := by
  have hunknown : (fields.map (·.1)).filter (fun key => !knownKeys.contains key) = [] := by
    simpa using h
  simp only [ofJson, hunknown, List.isEmpty_nil, Bool.not_true, Bool.false_eq_true, if_false]
  refine (readSection_bind .messagesNotObject readMessages rfl fields "messages" _).trans
    (bind_congr fun messages => ?_)
  refine (readSection_bind .niceNamesNotStrings readNiceNames rfl fields "nice_names" _).trans
    (bind_congr fun niceNames => ?_)
  unfold readFlag Json.fieldD
  cases Table.get? fields "replace_nice_names" with
  | none => rfl
  | some value => cases value <;> rfl

/-- **What is read from an object.**  An object is read as a configuration exactly if it has known
keys only, its sections are those of the configuration as they are written, and the flag is a
boolean.

**Proof sketch.** An object with an unknown key is rejected by the first check.  Otherwise the
three parts are read one after the other, and to read a section undoes to write it. -/
theorem ofJson_obj_eq_ok {fields : List (String × Json)} {config : Config} :
    ofJson (.obj fields) = .ok config ↔
      (∀ e ∈ fields, e.1 ∈ knownKeys) ∧
      Json.section? fields "messages" =
        some (config.messages.map fun e => (e.1.key, .str e.2)) ∧
      Json.section? fields "nice_names" = some (config.niceNames.map fun e => (e.1, .str e.2)) ∧
      Json.fieldD fields "replace_nice_names" (.bool false) = .bool config.replaceNiceNames := by
  by_cases hknown : ∀ e ∈ fields, e.1 ∈ knownKeys
  · have hsection {α : Type} {error : ConfigError}
        {read : List (String × Json) → Except ConfigError α} {name : String} {a : α} :
        readSection error read fields name = .ok a ↔
          ∃ entries, Json.section? fields name = some entries ∧ read entries = .ok a := by
      unfold readSection
      cases Json.section? fields name <;> simp
    have hflag {replace : Bool} : readFlag fields = .ok replace ↔
        Json.fieldD fields "replace_nice_names" (.bool false) = .bool replace := by
      unfold readFlag
      cases Json.fieldD fields "replace_nice_names" (.bool false) <;> simp
    simp only [ofJson_obj_eq hknown, bind_eq_ok, pure_eq_ok, hsection, hflag, readMessages_eq_ok,
      readNiceNames_eq_ok]
    constructor
    · rintro ⟨messages, ⟨_, hmessages, rfl⟩, names, ⟨_, hnames, rfl⟩, replace, hreplace, rfl⟩
      exact ⟨hknown, hmessages, hnames, hreplace⟩
    · rintro ⟨_, hmessages, hnames, hreplace⟩
      exact ⟨_, ⟨_, hmessages, rfl⟩, _, ⟨_, hnames, rfl⟩, _, hreplace, rfl⟩
  · refine iff_of_false (fun h => hknown ?_) fun h => hknown h.1
    intro e he
    by_contra hnot
    have hmem : e.1 ∈ (fields.map (·.1)).filter fun key => !knownKeys.contains key := by
      simpa using ⟨⟨e.2, he⟩, hnot⟩
    have hunknown :
        ((fields.map (·.1)).filter fun key => !knownKeys.contains key).isEmpty = false := by
      rw [List.isEmpty_eq_false_iff]
      exact List.ne_nil_of_mem hmem
    simp only [ofJson, hunknown, Bool.not_false, if_true, bind_eq_ok, throw_ne_ok, false_and,
      exists_false] at h

/-- The fields of a configuration: they have known keys; the section of phrases holds texts under
keys of phrases, that of nice names holds texts, and the flag is a boolean.  None of them has to be
there. -/
structure Readable (fields : List (String × Json)) : Prop where
  known : ∀ e ∈ fields, e.1 = "messages" ∨ e.1 = "nice_names" ∨ e.1 = "replace_nice_names"
  messages : ∃ entries, Json.section? fields "messages" = some entries ∧
    ∀ e ∈ entries, (∃ id : MessageId, id.key = e.1) ∧ ∃ text, e.2 = .str text
  niceNames : ∃ entries, Json.section? fields "nice_names" = some entries ∧
    ∀ e ∈ entries, ∃ text, e.2 = .str text
  replace : ∃ value, Json.fieldD fields "replace_nice_names" (.bool false) = .bool value

/-- **An object is read exactly if it has the fields of a configuration.**

**Proof sketch.** By `ofJson_obj_eq_ok` an object is read if its sections are those of some
configuration as they are written.  Entries of the right form are, one by one. -/
lemma exists_ofJson_obj_iff {fields : List (String × Json)} :
    (∃ config, ofJson (.obj fields) = .ok config) ↔ Readable fields := by
  constructor
  · rintro ⟨config, h⟩
    obtain ⟨hknown, hmessages, hnames, hreplace⟩ := ofJson_obj_eq_ok.1 h
    refine ⟨by simpa [knownKeys] using hknown, ⟨_, hmessages, fun e he => ?_⟩,
      ⟨_, hnames, fun e he => ?_⟩, ⟨_, hreplace⟩⟩
    · obtain ⟨⟨id, text⟩, _, rfl⟩ := List.mem_map.1 he
      exact ⟨⟨id, rfl⟩, text, rfl⟩
    · obtain ⟨⟨_, text⟩, _, rfl⟩ := List.mem_map.1 he
      exact ⟨text, rfl⟩
  · rintro ⟨hknown, ⟨messages, hmessages, hphrases⟩, ⟨names, hnames, htexts⟩, replace, hreplace⟩
    -- entries of the right form are those of a table as it is written
    have htable {κ : Type} {f : κ × String → String × Json} {entries : List (String × Json)}
        (h : ∀ e ∈ entries, ∃ a, f a = e) : ∃ table : Table κ String, table.map f = entries :=
      (Set.ext_iff.1 (Set.range_list_map f) entries).2 h
    obtain ⟨messages, rfl⟩ := htable (f := fun e : MessageId × String => (e.1.key, .str e.2))
      fun e he => by
        obtain ⟨⟨id, hid⟩, text, htext⟩ := hphrases e he
        exact ⟨(id, text), Prod.ext hid htext.symm⟩
    obtain ⟨names, rfl⟩ := htable (f := fun e : String × String => (e.1, .str e.2)) fun e he => by
      obtain ⟨text, htext⟩ := htexts e he
      exact ⟨(e.1, text), Prod.ext rfl htext.symm⟩
    exact ⟨⟨messages, names, replace⟩, ofJson_obj_eq_ok.2
      ⟨by simpa [knownKeys] using hknown, hmessages, hnames, hreplace⟩⟩

/-! ## What a configuration stands for -/

/-- The text of a phrase is the configured one, or the built-in one. -/
lemma display_catalog {fields : List (String × Json)} {config : Config}
    (h : ofJson (.obj fields) = .ok config) (id : MessageId) :
    config.display.catalog id = (Json.textIn? fields "messages" id.key).getD id.default := by
  obtain ⟨_, hmessages, _, _⟩ := ofJson_obj_eq_ok.1 h
  rw [Json.textIn?_of_section (fun _ _ => MessageId.key_injective) hmessages]
  rfl

/-- The nice name under a path is the configured one, or the built-in one unless those are
dropped. -/
lemma get?_allNiceNames {fields : List (String × Json)} {config : Config}
    (hkeys : (Json.obj fields).DistinctKeys) (h : ofJson (.obj fields) = .ok config)
    (path : String) :
    config.allNiceNames.get? path = (Json.textIn? fields "nice_names" path).or
      (if Json.flag fields "replace_nice_names" false then none
        else NiceNames.default.get? path) := by
  obtain ⟨_, _, hnames, hreplace⟩ := ofJson_obj_eq_ok.1 h
  have hnodup : (config.niceNames.map Prod.fst).Nodup := by
    simpa [Function.comp_def] using hkeys.section? hnames
  have hflag : Json.flag fields "replace_nice_names" false = config.replaceNiceNames := by
    unfold Json.fieldD at hreplace
    unfold Json.flag
    cases hget : Table.get? fields "replace_nice_names" with
    | none => simpa [hget] using hreplace
    | some value =>
      rw [hget, Option.getD_some] at hreplace
      rw [hreplace]
      rfl
  rw [allNiceNames, Table.get?_insertMany hnodup, hflag,
    Json.textIn?_of_section (f := fun path => path) (fun _ _ => id) hnames]
  cases config.replaceNiceNames <;> rfl

/-- **Which values are configurations, and what they stand for.**  A value is read exactly if it is
an object with the fields of a configuration.  If no object in it repeats a key, as is the case for
every value that is read from a text, every phrase then has the overriding text or else the built-in
one; and every declaration has the nice name that is configured for its qualified name, if there is
one, else the built-in one if those are not dropped, else none.

**Proof sketch.** To read a section undoes to write it, so the entries of the sections are those of
the tables that are read.  As no key is repeated, entering the configured names into the built-in
table, or into an empty one, changes what is found under the configured names alone. -/
theorem display_configured (json : Json) :
    ((∃ config, ofJson json = .ok config) ↔ ∃ fields, json = .obj fields ∧ Readable fields) ∧
      ∀ fields config, json = .obj fields → json.DistinctKeys → ofJson json = .ok config →
        (∀ id, config.display.catalog id =
          (Json.textIn? fields "messages" id.key).getD id.default) ∧
        ∀ g id, config.display.niceNames.find? g id =
          (Json.textIn? fields "nice_names" (g.qualifiedName id)).or
            (if Json.flag fields "replace_nice_names" false then none
              else NiceNames.default.find? g id) := by
  refine ⟨?_, fun fields config hjson hkeys h => ?_⟩
  · cases json with
    | obj fields =>
      rw [exists_ofJson_obj_iff]
      exact ⟨fun h => ⟨fields, rfl, h⟩, fun ⟨_, hjson, h⟩ => Json.obj.inj hjson ▸ h⟩
    | _ => exact iff_of_false (fun ⟨_, h⟩ => nomatch h) fun ⟨_, h, _⟩ => nomatch h
  · subst hjson
    exact ⟨display_catalog h, fun g id => get?_allNiceNames hkeys h (g.qualifiedName id)⟩

/-- A configuration that replaces a phrase and a built-in nice name and adds a nice name; the other
phrases and nice names are the built-in ones. -/
theorem display_configured_guid :
    let fields : List (String × Json) := [("messages", .obj [("NULL", .str "nothing")]),
      ("nice_names", .obj [("System.Guid", .str "Guid"), ("System.Int32", .str "i32")])]
    let types : Json := .obj [("declarations", .arr [.obj [("kind", .str "namespace"),
      ("name", .str "System"), ("members", .arr [
        .obj [("kind", .str "struct"), ("name", .str "Guid")],
        .obj [("kind", .str "struct"), ("name", .str "Int32")],
        .obj [("kind", .str "class"), ("name", .str "String")],
        .obj [("kind", .str "class"), ("name", .str "Type")]])]])]
    let type (name : String) := (SymId.root.child (.member "System" 0)).child (.member name 0)
    (Json.obj fields).DistinctKeys ∧ Readable fields ∧
    ∃ config doc, ofJson (.obj fields) = .ok config ∧ Document.ofJson types = .ok doc ∧
      config.display.catalog .null = "nothing" ∧ config.display.catalog .void = "void" ∧
      config.display.niceNames.find? doc.graph (type "Guid") = some "Guid" ∧
      config.display.niceNames.find? doc.graph (type "Int32") = some "i32" ∧
      config.display.niceNames.find? doc.graph (type "String") = some "string" ∧
      config.display.niceNames.find? doc.graph (type "Type") = none := by
  intro fields types type
  have hkeys : (Json.obj fields).DistinctKeys := by simp [fields]
  obtain ⟨config, doc, hconfig, hdoc, hguid, hint, hstring, htype⟩ : ∃ config doc,
      ofJson (.obj fields) = .ok config ∧ Document.ofJson types = .ok doc ∧
      doc.graph.qualifiedName (type "Guid") = "System.Guid" ∧
      doc.graph.qualifiedName (type "Int32") = "System.Int32" ∧
      doc.graph.qualifiedName (type "String") = "System.String" ∧
      doc.graph.qualifiedName (type "Type") = "System.Type" := by
    refine ⟨?config, ?doc, ?hconfig, ?hdoc, ?hguid, ?hint, ?hstring, ?htype⟩
    case hconfig => cbv; rfl
    case hdoc => cbv; rfl
    all_goals
      dsimp only [type]
      decide +kernel
  obtain ⟨hreadable, hdisplay⟩ := display_configured (.obj fields)
  obtain ⟨_, hobj, hfields⟩ := hreadable.1 ⟨config, hconfig⟩
  obtain rfl := Json.obj.inj hobj
  obtain ⟨hcatalog, hnice⟩ := hdisplay _ config rfl hkeys hconfig
  simp only [NiceNames.find?] at hnice ⊢
  exact ⟨hkeys, hfields, config, doc, hconfig, hdoc, hcatalog .null, hcatalog .void,
    by rw [hnice, hguid]; rfl, by rw [hnice, hint]; rfl, by rw [hnice, hstring]; rfl,
    by rw [hnice, htype]; rfl⟩

end Config

end DisplayNames
