import DisplayNames.Proofs.RunReports

/-!
# Defective input files

A run reads two files, the configuration and the document, and each can be defective in four ways:
it cannot be read, its bytes are not UTF-8, its text is not JSON, or its value is rejected.  Three
of them end the run with one diagnostic.  Bytes that are not UTF-8 are not reported, in neither
file, but escape from the run, and so does the walk for a request that does not end.

## Main definitions

* `DisplayNames.CommandLine.Undecodable` — the bytes of a file are not UTF-8.
* `DisplayNames.CommandLine.Unusable` — a file is defective in one of the other ways.
* `DisplayNames.CommandLine.Escapes` — something escapes from a run.

## Main results

* `DisplayNames.CommandLine.loadWith_cases` — a file is accepted, undecodable or unusable.
* `DisplayNames.CommandLine.run_exits_or_escapes` — a run ends with an exit code or something
  escapes.
* `DisplayNames.CommandLine.defective_files` — what runs make of defective files.
-/

set_option relaxedAutoImplicit false
set_option autoImplicit false

namespace DisplayNames

namespace CommandLine

/-- A file can be read, and its bytes are not UTF-8. -/
def Undecodable (files : Files) (path : String) : Prop :=
  ∃ bytes, files path = some bytes ∧ String.fromUTF8? bytes = none

/-- A file is of no use for a reader of values, for another reason than that it is undecodable. -/
inductive Unusable {ε α : Type} (files : Files) (path : String) (read : Json → Except ε α) : Prop
  | unreadable : files path = none → Unusable files path read
  | notJson {bytes : ByteArray} {text : String} : files path = some bytes →
    String.fromUTF8? bytes = some text → Json.read? text = none → Unusable files path read
  | rejected {bytes : ByteArray} {text : String} {value : Json} {error : ε} :
    files path = some bytes → String.fromUTF8? bytes = some text → Json.read? text = some value →
      read value = .error error → Unusable files path read

/-! ## Loading a file -/

section

variable {ε α : Type} {read : Json → Except ε α} {unreadable notJson : ε} {failure : ε → Failure}
  {files : Files} {path : String}

/-- What is loaded from a file by a reader whose errors are failures of the run. -/
def loadWith (read : Json → Except ε α) (unreadable notJson : ε) (failure : ε → Failure)
    (files : Files) (path : String) : Except Failure α :=
  match readJson files path with
  | .error .unreadable => .error (failure unreadable)
  | .error .undecodable => .error .undecodable
  | .error .notJson => .error (failure notJson)
  | .ok value => (read value).mapError failure

/-- The configuration is loaded in this way. -/
lemma loadConfig_eq_loadWith (files : Files) (path : String) :
    loadConfig files path =
      loadWith Config.ofJson (.unreadable path) (.notJson path) .config files path := rfl

/-- The document is loaded in this way. -/
lemma loadDocument_eq_loadWith (files : Files) (path : String) :
    loadDocument files path =
      loadWith Document.ofJson (.unreadable path) (.notJson path) .document files path := rfl

/-- Undecodable bytes are no failure of the reader. -/
lemma loadWith_of_undecodable (h : Undecodable files path) :
    loadWith read unreadable notJson failure files path = .error .undecodable := by
  obtain ⟨bytes, hbytes, htext⟩ := h
  simp only [loadWith, readJson, hbytes, htext]

/-- All other defects are failures of the reader. -/
lemma loadWith_of_unusable (unreadable notJson : ε) (failure : ε → Failure)
    (h : Unusable files path read) :
    ∃ error, loadWith read unreadable notJson failure files path = .error (failure error) := by
  cases h with
  | unreadable hbytes => exact ⟨unreadable, by simp only [loadWith, readJson, hbytes]⟩
  | notJson hbytes htext hvalue =>
    exact ⟨notJson, by simp only [loadWith, readJson, hbytes, htext, hvalue]⟩
  | @rejected bytes text value error hbytes htext hvalue hread =>
    refine ⟨error, ?_⟩
    simp only [loadWith, readJson, hbytes, htext, hvalue, hread]
    rfl

/-- **A file is accepted, undecodable or unusable.**

**Proof sketch.** A case for each thing that can be missing, in the order in which the file is
read. -/
theorem loadWith_cases (read : Json → Except ε α) (unreadable notJson : ε) (failure : ε → Failure)
    (files : Files) (path : String) :
    (∃ a, loadWith read unreadable notJson failure files path = .ok a) ∨ Undecodable files path ∨
      Unusable files path read := by
  cases hbytes : files path with
  | none => exact .inr (.inr (.unreadable hbytes))
  | some bytes =>
    cases htext : String.fromUTF8? bytes with
    | none => exact .inr (.inl ⟨bytes, hbytes, htext⟩)
    | some text =>
      cases hvalue : Json.read? text with
      | none => exact .inr (.inr (.notJson hbytes htext hvalue))
      | some value =>
        cases hread : read value with
        | error error => exact .inr (.inr (.rejected hbytes htext hvalue hread))
        | ok a =>
          refine .inl ⟨a, ?_⟩
          simp only [loadWith, readJson, hbytes, htext, hvalue, hread]
          rfl

end

/-! ## Runs over defective files -/

/-- Something escapes from a run: the bytes of the configuration, or those of the document behind an
accepted configuration, are not UTF-8, or the walk for a request of an accepted document does not
end. -/
inductive Escapes (files : Files) (options : Options) : Prop
  | config {path : String} : options.config = some path → Undecodable files path →
    Escapes files options
  | document {config : Config} : configOf files options.config = .ok config →
    Undecodable files options.document → Escapes files options
  | request {config : Config} {doc : Document} {request : Document.Request} :
    configOf files options.config = .ok config → loadDocument files options.document = .ok doc →
      request ∈ doc.requests → ¬ request.subject.Ends doc.graph → Escapes files options

section

variable {files : Files} {options : Options}

/-- Undecodable bytes in the file of the configuration escape. -/
lemma run_of_config_undecodable {path : String} (hpath : options.config = some path)
    (h : Undecodable files path) : (run files options).ending = .undecodable := by
  have hload : configOf files options.config = .error .undecodable := by
    rw [hpath]
    exact (loadConfig_eq_loadWith files path).trans (loadWith_of_undecodable h)
  rw [run_of_config_failure hload]
  rfl

/-- Any other defect of the configuration is reported, and nothing else. -/
lemma run_of_config_unusable {path : String} (hpath : options.config = some path)
    (h : Unusable files path Config.ofJson) :
    ∃ error : ConfigError, (run files options).Shows options.json "" []
      [{ message := error.message, phase := some "config" }] := by
  obtain ⟨error, hload⟩ := loadWith_of_unusable (.unreadable path) (.notJson path) .config h
  have hconfig : configOf files options.config = .error (.config error) := by
    rw [hpath]
    exact (loadConfig_eq_loadWith files path).trans hload
  refine ⟨error, ?_⟩
  rw [run_of_config_failure hconfig]
  have hlog : logText options.verbosity [] = "" := rfl
  rw [← hlog]
  exact report_shows options [] [] (by simp)

variable {config : Config} (hconfig : configOf files options.config = .ok config)
include hconfig

/-- Undecodable bytes in the file of the document escape. -/
lemma run_of_document_undecodable (h : Undecodable files options.document) :
    (run files options).ending = .undecodable := by
  have hload : loadDocument files options.document = .error .undecodable :=
    (loadDocument_eq_loadWith files options.document).trans (loadWith_of_undecodable h)
  rw [run_of_config hconfig, hload]
  rfl

/-- Any other defect of the document is reported, and nothing else. -/
lemma run_of_document_unusable (h : Unusable files options.document Document.ofJson) :
    ∃ error : DocumentError, (run files options).Shows options.json
      (logText options.verbosity (configLog config options.config)) []
      [{ message := error.message, phase := some "load", notes := [options.document] }] := by
  obtain ⟨error, hload⟩ := loadWith_of_unusable (.unreadable options.document)
    (.notJson options.document) .document h
  have hdoc : loadDocument files options.document = .error (.document error) :=
    (loadDocument_eq_loadWith files options.document).trans hload
  refine ⟨error, ?_⟩
  rw [run_of_config hconfig, hdoc]
  exact report_shows options _ [] (by simp)

/-- The run over a document whose requests all end has an exit code; one with another request has
none. -/
lemma run_of_document_accepted {doc : Document}
    (hdoc : loadDocument files options.document = .ok doc) :
    ((∀ request ∈ doc.requests, request.subject.Ends doc.graph) →
        ∃ code ≤ 1, (run files options).ending = .exit code) ∧
      ((∃ request ∈ doc.requests, ¬ request.subject.Ends doc.graph) →
        (run files options).ending = .endless) := by
  obtain ⟨json, hjson⟩ := exists_json_of_loadDocument hdoc
  have hloaded := Document.loaded_of_ofJson hjson
  have hendless (request) (hrequest : request ∈ doc.requests) :=
    (hloaded.requests request hrequest).endless_iff hloaded.graph config.display (r := {}) rfl
  rw [run_of_config hconfig, hdoc]
  constructor
  · intro hends
    obtain ⟨results, hresults⟩ := exists_results _ fun request hrequest hresult =>
      (hendless request hrequest).1 hresult (hends request hrequest)
    exact (runDocument_shows options _ config doc hresults).exits
  · rintro ⟨request, hrequest, hnot⟩
    exact (runDocument_endless options _ config hrequest ((hendless request hrequest).2 hnot)).1

omit hconfig

/-- The configuration of a run is accepted, or its file is undecodable or unusable. -/
lemma configOf_cases (files : Files) (path? : Option String) :
    (∃ config, configOf files path? = .ok config) ∨
      ∃ path, path? = some path ∧ (Undecodable files path ∨ Unusable files path Config.ofJson) := by
  cases path? with
  | none => exact .inl ⟨{}, rfl⟩
  | some path =>
    rcases loadWith_cases Config.ofJson (.unreadable path) (.notJson path) .config files path with
      ⟨config, hconfig⟩ | hdefect
    · exact .inl ⟨config, hconfig⟩
    · exact .inr ⟨path, rfl, hdefect⟩

/-- **A run ends with an exit code or something escapes.**

**Proof sketch.** The cases are those of the two files in the order in which they are read, and
behind two accepted files those of the requests. -/
theorem run_exits_or_escapes (files : Files) (options : Options) :
    (∃ code ≤ 1, (run files options).ending = .exit code) ∨ Escapes files options := by
  rcases configOf_cases files options.config with
    ⟨config, hconfig⟩ | ⟨path, hpath, hundecodable | hunusable⟩
  · rcases loadWith_cases Document.ofJson (.unreadable options.document) (.notJson options.document)
      .document files options.document with ⟨doc, hdoc⟩ | hundecodable | hunusable
    · by_cases hends : ∀ request ∈ doc.requests, request.subject.Ends doc.graph
      · exact .inl ((run_of_document_accepted hconfig hdoc).1 hends)
      · push Not at hends
        obtain ⟨request, hrequest, hnot⟩ := hends
        exact .inr (.request hconfig hdoc hrequest hnot)
    · exact .inr (.document hconfig hundecodable)
    · obtain ⟨error, hshows⟩ := run_of_document_unusable hconfig hunusable
      exact .inl hshows.exits
  · exact .inr (.config hpath hundecodable)
  · obtain ⟨error, hshows⟩ := run_of_config_unusable hpath hunusable
    exact .inl hshows.exits

/-- A run from which something escapes has no exit code. -/
lemma ending_of_escapes (h : Escapes files options) (code : Nat) :
    (run files options).ending ≠ .exit code := by
  cases h with
  | config hpath hundecodable =>
    rw [run_of_config_undecodable hpath hundecodable]
    exact nofun
  | document hconfig hundecodable =>
    rw [run_of_document_undecodable hconfig hundecodable]
    exact nofun
  | @request config doc request hconfig hdoc hrequest hnot =>
    rw [(run_of_document_accepted hconfig hdoc).2 ⟨request, hrequest, hnot⟩]
    exact nofun

end

/-- **What runs make of defective files.**  The run of a command line ends with exit code zero or
one exactly if nothing escapes, and has no exit code otherwise.  An unusable configuration is
reported with exit code one in a single diagnostic, whatever the document is, and an unusable
document behind an accepted configuration as well, with the path of the document as the only note;
in neither case is there a name.

**Proof sketch.** Both inputs are accepted, undecodable or unusable.  An unusable one is reported
when it is read; the only other ways out are the requests of an accepted document, which all end or
do not. -/
theorem defective_files {files : Files} {arguments : List String} {options : Options}
    (hparse : parse arguments = .ok options) :
    (¬ Escapes files options → ∃ code ≤ 1, (runArguments files arguments).ending = .exit code) ∧
      (Escapes files options → ∀ code, (runArguments files arguments).ending ≠ .exit code) ∧
      (∀ path, options.config = some path → Unusable files path Config.ofJson →
        ∃ error : ConfigError, (runArguments files arguments).Shows options.json "" []
          [{ message := error.message, phase := some "config" }]) ∧
      ∀ config, configOf files options.config = .ok config →
        Unusable files options.document Document.ofJson →
          ∃ error : DocumentError, (runArguments files arguments).Shows options.json
            (logText options.verbosity (configLog config options.config)) []
            [{ message := error.message, phase := some "load", notes := [options.document] }] := by
  have hrun : runArguments files arguments = run files options := by rw [runArguments, hparse]
  rw [hrun]
  exact ⟨(run_exits_or_escapes files options).resolve_right, ending_of_escapes,
    fun path => run_of_config_unusable, fun config => run_of_document_unusable⟩

/-- A missing document is reported.  The report ends in front of what the system has to say about
the file, which is no part of the message of a defect. -/
theorem defective_files_missing :
    parse ["g"] = .ok ⟨"g", none, false, 0⟩ ∧
      Unusable (fun _ => none) "g" Document.ofJson ∧
      (∃ error : DocumentError, (runArguments (fun _ => none) ["g"]).Shows false "" []
        [{ message := error.message, phase := some "load", notes := ["g"] }]) ∧
      (runArguments (fun _ => none) ["g"]) =
        ⟨.exit 1, "", "error[load]: cannot read g\n  note: g\n"⟩ := by
  have hmissing : Unusable (fun _ => none) "g" Document.ofJson := .unreadable rfl
  refine ⟨parse_document, hmissing, (defective_files parse_document).2.2.2 {} rfl hmissing, ?_⟩
  rw [runArguments, parse_document]
  decide +kernel

/-- A document whose only byte is no UTF-8 is not reported. -/
theorem undecodable_document_escapes :
    parse ["g"] = .ok ⟨"g", none, false, 0⟩ ∧
      ∃ files, Undecodable files "g" ∧
        ¬ ∃ code, (runArguments files ["g"]).ending = .exit code := by
  let files : Files := fun path => if path = "g" then some ⟨#[0xff]⟩ else none
  have hundecodable : Undecodable files "g" := ⟨⟨#[0xff]⟩, rfl, by decide +kernel⟩
  refine ⟨parse_document, files, hundecodable, ?_⟩
  rintro ⟨code, hcode⟩
  have hconfig : configOf files (⟨"g", none, false, 0⟩ : Options).config = .ok {} := rfl
  have hending : (run files ⟨"g", none, false, 0⟩).ending = .undecodable :=
    run_of_document_undecodable hconfig hundecodable
  rw [runArguments, parse_document] at hcode
  rw [hending] at hcode
  cases hcode

end CommandLine

end DisplayNames
