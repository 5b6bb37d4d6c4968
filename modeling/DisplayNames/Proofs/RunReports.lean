import DisplayNames.CommandLine.Run
import DisplayNames.Proofs.CallSequence
import Mathlib.Tactic.Lemma

/-!
# What runs report

A run over an accepted document answers the requests along three routes: types and symbols with
their arguments are formatted as arguments of diagnostics, and symbols without arguments go to one
renderer.  Whatever the route, a request is answered as one renderer answers it that is asked for
all of them in turn.  So the names and the diagnostics divide the requests between them, and the
switches of the command line only decide in which form both are shown.

All of this presupposes that the walks for all requests end.  An explicit implementation whose chain
of slots leads back to itself is accepted in a document, and a request for it ends the run without
any report.

## Main definitions

* `DisplayNames.Subject.Ends` — the walk for a subject ends.
* `DisplayNames.CommandLine.configOf` — the configuration of a run.
* `DisplayNames.CommandLine.Outcome.Shows` — a run shows names and diagnostics.
* `DisplayNames.CommandLine.AccountsFor` — the runs over a document account for all requests.

## Main results

* `DisplayNames.CommandLine.answer_eq_render` — all routes give what the renderer gives.
* `DisplayNames.CommandLine.answerAll_eq` — every request is answered as if it were the only one.
* `DisplayNames.CommandLine.runs_account` — the runs over a document account for all requests
  exactly if the walks for all of them end.
-/

set_option relaxedAutoImplicit false
set_option autoImplicit false

namespace DisplayNames

/-! ## Walks that end -/

/-- The walk for a subject ends: a type has no chain to follow, and that of a symbol is finite. -/
def Subject.Ends (g : Graph) : Subject → Prop
  | .symbol (some id) _ _ => ∃ last, g.Leads id last
  | _ => True

/-- The walk for a subject of a loaded graph goes on forever exactly if its chain does.

**Proof sketch.** A type goes through.  A finite chain is shorter than the graph, so the walk along
it stays within the bound and stops at a defect, if at all. -/
lemma Subject.Loaded.endless_iff {g : Graph} {subject : Subject} (hsubject : subject.Loaded g)
    (hg : g.Loaded) (display : Display) {r : Renderer} (hr : r.session.isOpen = false) :
    (r.render g display subject).1 = .error .endless ↔ ¬ subject.Ends g := by
  let scene : Scene := ⟨g, display.niceNames, r.memo.isBogus g⟩
  have hscene : scene.graph.Loaded := hg
  cases subject with
  | type t ctx =>
    obtain ⟨text, htext⟩ := hsubject.outcome hg display hr
    simp [htext, Ends]
  | symbol id ctx args =>
    cases id with
    | none => exact hsubject.elim
    | some id =>
      obtain ⟨⟨s, hs⟩, hctx⟩ := hsubject
      rw [Renderer.render_fst hr, Rendering.finish_eq_error_iff]
      change (scene.symbol id ctx args).stop = some .endless ↔ ¬ ∃ last, g.Leads id last
      unfold Scene.symbol Scene.walkBound
      constructor
      · rintro hstop ⟨last, links, hleads⟩
        have hlt : links < scene.graph.size := hleads.lt_size hg hs
        obtain ⟨e, he, _⟩ :=
          (Scene.stop_of_leadsIn hscene hleads (by omega) hctx args hs .endless).1 hstop
        cases he
      · intro hnot
        rw [not_exists] at hnot
        exact Scene.stop_of_not_leads hscene hnot _ hctx args hs

namespace CommandLine

/-! ## The routes of a request -/

section

variable (g : Graph) (display : Display)

/-- To format a reference is to render its subject.  The text that is taken out of the formatted
argument is the one that was put in. -/
lemma formatted_eq_render (arg : Argument) {subject : Subject}
    (hsubject : arg.subject? = some subject) (memo : Memo) :
    formatted arg g display ⟨.closed, memo⟩ =
      Renderer.render ⟨.closed, memo⟩ g display subject := by
  unfold formatted Argument.format
  rw [hsubject]
  have hopen : Session.isOpen .closed = false := rfl
  simp only [Renderer.render, hopen, Bool.false_eq_true, if_false]
  refine Prod.ext ?_ rfl
  cases (Renderer.rendering ⟨.closed, memo⟩ g display subject).finish display.catalog <;> rfl

/-- **All routes give what the renderer gives.** -/
theorem answer_eq_render (memo : Memo) (subject : Subject) :
    answer g display ⟨.closed, memo⟩ subject =
      Renderer.render ⟨.closed, memo⟩ g display subject := by
  match subject with
  | .type t ctx => exact formatted_eq_render g display (.type t ctx) rfl memo
  | .symbol id ctx true => exact formatted_eq_render g display (.symbol id ctx) rfl memo
  | .symbol id ctx false => rfl

/-- The answer to a request that is the only one. -/
def answerAlone (request : Document.Request) : Answer :=
  ⟨request.label, (({} : Renderer).render g display request.subject).1,
    (({} : Renderer).rendering g display request.subject).parts display.catalog⟩

/-- **Every request is answered as if it were the only one.**  The renderer is closed between two
requests, and what is remembered is true of the graph.

**Proof sketch.** Induction on the requests, for any memory that is true of the graph.  Such a
memory answers like an empty one, and what a request adds to it is true as well. -/
theorem answerAll_eq {memo : Memo} (hmemo : memo.Sound g) (requests : List Document.Request) :
    answerAll g display ⟨.closed, memo⟩ requests = requests.map (answerAlone g display) := by
  induction requests generalizing memo with
  | nil => rfl
  | cons request rest ih =>
    have hresult := Renderer.render_fst_eq ⟨.closed, memo⟩ {} rfl rfl hmemo (Memo.Sound.empty g)
      display request.subject
    have hwalk : Renderer.rendering ⟨.closed, memo⟩ g display request.subject =
        Renderer.rendering {} g display request.subject := by
      have hbogus := (Memo.sound_iff.1 hmemo).trans (Memo.sound_iff.1 (Memo.Sound.empty g)).symm
      exact congrArg (fun bogus => request.subject.rendering ⟨g, display.niceNames, bogus⟩) hbogus
    have hnext : (Renderer.render ⟨.closed, memo⟩ g display request.subject).2 =
        ⟨.closed, memo.examineAll g
          (Renderer.rendering ⟨.closed, memo⟩ g display request.subject).examined⟩ := rfl
    rw [answerAll, List.map_cons, answer_eq_render]
    simp only [hnext, ih (hmemo.examineAll _), hresult, hwalk]
    rfl

end

/-! ## Results -/

/-- The entry of a request that is displayed. -/
def entryOf? : Document.Request × Except RenderError String → Option (Json × String)
  | (request, .ok text) => some (request.label, text)
  | (_, .error _) => none

/-- The report of a request that fails. -/
def reportOf? : Document.Request × Except RenderError String → Option Diagnostic
  | (_, .ok _) => none
  | (request, .error error) =>
    some
      { message := error.message
        code := some "E-RENDER"
        phase := some "render"
        notes := ["request: " ++ request.label.display] }

/-- Results of walks that end are texts or errors of the renderer. -/
lemma exists_results {α : Type} (f : α → Except Fault String) {l : List α}
    (h : ∀ a ∈ l, f a ≠ .error .endless) :
    ∃ results : List (Except RenderError String),
      l.map f = results.map (Except.mapError Fault.broken) := by
  induction l with
  | nil => exact ⟨[], rfl⟩
  | cons a rest ih =>
    obtain ⟨results, hresults⟩ := ih fun b hb => h b (List.mem_cons_of_mem a hb)
    have ha := h a List.mem_cons_self
    cases hf : f a with
    | ok text => exact ⟨.ok text :: results, by rw [List.map_cons, hf, hresults]; rfl⟩
    | error fault =>
      cases fault with
      | broken error => exact ⟨.error error :: results, by rw [List.map_cons, hf, hresults]; rfl⟩
      | endless => exact absurd hf ha

/-- Every request has an entry or a report, and none has both. -/
lemma length_entries_add_reports {requests : List Document.Request}
    {results : List (Except RenderError String)} (hlength : results.length = requests.length) :
    ((requests.zip results).filterMap entryOf?).length +
      ((requests.zip results).filterMap reportOf?).length = requests.length := by
  induction requests generalizing results with
  | nil => rfl
  | cons request rest ih =>
    cases results with
    | nil => cases hlength
    | cons result results =>
      have hrest := ih (Nat.succ.inj hlength)
      cases result <;>
        simp only [List.zip_cons_cons, List.filterMap_cons, entryOf?, reportOf?,
          List.length_cons] <;>
        omega

/-- The names and reports of the answers are those of the results. -/
lemma answers_filterMap (g : Graph) (display : Display) {requests : List Document.Request}
    {results : List (Except RenderError String)}
    (hresults : requests.map (fun request => (({} : Renderer).render g display request.subject).1) =
      results.map (Except.mapError Fault.broken)) :
    (requests.map (answerAlone g display)).filterMap Answer.entry? =
        (requests.zip results).filterMap entryOf? ∧
      (requests.map (answerAlone g display)).filterMap Answer.diagnostic? =
        (requests.zip results).filterMap reportOf? := by
  induction requests generalizing results with
  | nil => exact ⟨rfl, rfl⟩
  | cons request rest ih =>
    cases results with
    | nil => cases hresults
    | cons result results =>
      rw [List.map_cons, List.map_cons, List.cons.injEq] at hresults
      obtain ⟨hresult, hrest⟩ := hresults
      obtain ⟨hentries, hreports⟩ := ih hrest
      rw [List.map_cons, List.zip_cons_cons, List.filterMap_cons, List.filterMap_cons,
        List.filterMap_cons, List.filterMap_cons, hentries, hreports]
      unfold Answer.entry? Answer.diagnostic?
      rw [show (answerAlone g display request).result = result.mapError .broken from hresult]
      cases result <;> exact ⟨rfl, rfl⟩

/-- Nothing is left out of answers that are results of walks that end. -/
lemma untilEndless_of_forall {answers : List Answer}
    (h : ∀ a ∈ answers, a.result ≠ .error .endless) : untilEndless answers = (answers, false) := by
  induction answers with
  | nil => rfl
  | cons a rest ih =>
    have ha := h a List.mem_cons_self
    have hrest := ih fun b hb => h b (List.mem_cons_of_mem a hb)
    unfold untilEndless
    split
    · contradiction
    · rw [hrest]

/-- A walk without end among the answers is noticed. -/
lemma untilEndless_of_mem {answers : List Answer} {a : Answer} (hmem : a ∈ answers)
    (ha : a.result = .error .endless) : (untilEndless answers).2 = true := by
  induction answers with
  | nil => cases hmem
  | cons b rest ih =>
    unfold untilEndless
    split
    · rfl
    · rename_i hb
      rcases List.mem_cons.1 hmem with rfl | hmem
      · exact absurd ha hb
      · exact ih hmem

/-! ## Reports -/

/-- The exit code of a run: one if there is a diagnostic. -/
def codeOf (diagnostics : List Diagnostic) : Nat := if diagnostics.isEmpty then 0 else 1

/-- A run shows names and diagnostics: as texts, one on a line, on its two outputs, or for machines
as one value.  The log goes to the error output. -/
structure Outcome.Shows (outcome : Outcome) (json : Bool) (logged : String)
    (names : List (Json × String)) (diagnostics : List Diagnostic) : Prop where
  ending : outcome.ending = .exit (codeOf diagnostics)
  plain : json = false →
    outcome.output = String.join (names.map fun (_, text) => text ++ "\n") ∧
      outcome.errors = logged ++ String.join (diagnostics.map fun d => d.text ++ "\n")
  machine : json = true →
    outcome.output = (Json.obj [("exit_code", .int (codeOf diagnostics)),
        ("names",
          .arr (names.map fun (label, text) => .obj [("label", label), ("text", .str text)])),
        ("diagnostics", .arr (diagnostics.map Diagnostic.toJson))]).text ++ "\n" ∧
      outcome.errors = logged

/-- A run that shows something has an exit code. -/
lemma Outcome.Shows.exits {outcome : Outcome} {json : Bool} {logged : String}
    {names : List (Json × String)} {diagnostics : List Diagnostic}
    (h : outcome.Shows json logged names diagnostics) :
    ∃ code ≤ 1, outcome.ending = .exit code := by
  refine ⟨codeOf diagnostics, ?_, h.ending⟩
  unfold codeOf
  split <;> omega

/-- The reports of the driver are all errors, so any of them decides the exit code. -/
lemma exitCode_eq {diagnostics : List Diagnostic} (h : ∀ d ∈ diagnostics, d.severity = "error") :
    exitCode diagnostics = codeOf diagnostics := by
  unfold exitCode codeOf
  cases diagnostics with
  | nil => rfl
  | cons d rest => simp [h d List.mem_cons_self]

/-- A report shows its names and diagnostics. -/
lemma report_shows (options : Options) (log : List LogRecord) (names : List (Json × String))
    {diagnostics : List Diagnostic} (h : ∀ d ∈ diagnostics, d.severity = "error") :
    (report options log names diagnostics).Shows options.json (logText options.verbosity log) names
      diagnostics := by
  unfold report payload
  rw [exitCode_eq h]
  cases options.json with
  | false => exact ⟨rfl, fun _ => ⟨rfl, rfl⟩, fun hjson => absurd hjson (by decide)⟩
  | true => exact ⟨rfl, fun hjson => absurd hjson (by decide), fun _ => ⟨rfl, rfl⟩⟩

/-- The reports of failed requests are errors. -/
lemma severity_reportOf? {requests : List Document.Request}
    {results : List (Except RenderError String)} :
    ∀ d ∈ (requests.zip results).filterMap reportOf?, d.severity = "error" := by
  intro d hd
  obtain ⟨⟨request, result⟩, _, hreport⟩ := List.mem_filterMap.1 hd
  cases result with
  | ok text => cases hreport
  | error error =>
    cases hreport
    rfl

/-! ## Runs -/

/-- The configuration of a run: that of the file, if one is named. -/
def configOf (files : Files) : Option String → Except Failure Config
  | none => .ok {}
  | some path => loadConfig files path

/-- The progress messages about the configuration. -/
def configLog (config : Config) : Option String → List LogRecord
  | none => []
  | some path => [configLoaded path config]

section

variable {files : Files} {options : Options} {config : Config}

/-- A defect of the configuration ends a run. -/
lemma run_of_config_failure {failure : Failure}
    (hconfig : configOf files options.config = .error failure) :
    run files options = reportFailure options [] failure := by
  unfold run
  cases hpath : options.config with
  | none =>
    rw [hpath] at hconfig
    cases hconfig
  | some path =>
    rw [hpath] at hconfig
    have hload : loadConfig files path = .error failure := hconfig
    simp only [hload, Except.map]

/-- What comes behind an accepted configuration. -/
lemma run_of_config (hconfig : configOf files options.config = .ok config) :
    run files options = match loadDocument files options.document with
      | .error failure => reportFailure options (configLog config options.config) failure
      | .ok doc => runDocument options (configLog config options.config) config doc := by
  unfold run
  cases hpath : options.config with
  | none =>
    rw [hpath] at hconfig
    cases hconfig
    rfl
  | some path =>
    rw [hpath] at hconfig
    have hload : loadConfig files path = .ok config := hconfig
    simp only [hload, Except.map]
    rfl

end

/-- A document that was read from a file was accepted. -/
lemma exists_json_of_loadDocument {files : Files} {path : String} {doc : Document}
    (h : loadDocument files path = .ok doc) : ∃ json, Document.ofJson json = .ok doc := by
  unfold loadDocument at h
  split at h
  · cases h
  · cases h
  · cases h
  · rename_i json hjson
    cases hdoc : Document.ofJson json with
    | error error => simp [hdoc, Except.mapError] at h
    | ok doc' =>
      rw [hdoc] at h
      cases h
      exact ⟨json, hdoc⟩

/-- The run of a document none of whose requests is endless. -/
lemma runDocument_shows (options : Options) (log : List LogRecord) (config : Config)
    (doc : Document) {results : List (Except RenderError String)}
    (hresults : doc.requests.map
        (fun request => (({} : Renderer).render doc.graph config.display request.subject).1) =
      results.map (Except.mapError Fault.broken)) :
    (runDocument options log config doc).Shows options.json
      (logText options.verbosity
        (log ++ documentLoaded doc :: (answers doc config).flatMap Answer.log))
      ((doc.requests.zip results).filterMap entryOf?)
      ((doc.requests.zip results).filterMap reportOf?) := by
  have hanswers : answers doc config = doc.requests.map (answerAlone doc.graph config.display) :=
    answerAll_eq doc.graph config.display (.empty doc.graph) doc.requests
  have hended : ∀ a ∈ answers doc config, a.result ≠ .error .endless := by
    intro a ha hendless
    rw [hanswers] at ha
    obtain ⟨request, hrequest, rfl⟩ := List.mem_map.1 ha
    have hmem := List.mem_map_of_mem hrequest
      (f := fun request => (({} : Renderer).render doc.graph config.display request.subject).1)
    rw [hresults] at hmem
    obtain ⟨result, _, hresult⟩ := List.mem_map.1 hmem
    have heq : result.mapError Fault.broken = .error .endless := hresult.trans hendless
    cases result <;> cases heq
  obtain ⟨hentries, hreports⟩ := answers_filterMap doc.graph config.display hresults
  unfold runDocument
  rw [untilEndless_of_forall hended]
  simp only [Bool.false_eq_true, if_false]
  rw [hanswers, hentries, hreports]
  exact report_shows options _ _ severity_reportOf?

/-- The run of a document with an endless request. -/
lemma runDocument_endless (options : Options) (log : List LogRecord) (config : Config)
    {doc : Document} {request : Document.Request} (hrequest : request ∈ doc.requests)
    (hendless : (({} : Renderer).render doc.graph config.display request.subject).1 =
      .error .endless) :
    (runDocument options log config doc).ending = .endless ∧
      (runDocument options log config doc).output = "" := by
  have hanswers : answers doc config = doc.requests.map (answerAlone doc.graph config.display) :=
    answerAll_eq doc.graph config.display (.empty doc.graph) doc.requests
  have hmem : answerAlone doc.graph config.display request ∈ answers doc config := by
    rw [hanswers]
    exact List.mem_map_of_mem hrequest
  unfold runDocument
  simp only [untilEndless_of_mem hmem hendless, if_true]
  exact ⟨trivial, trivial⟩

/-- The runs over a document account for all requests.  There is a result for each request, a text
or an error, which is what one renderer gives that is asked for all of them in turn; each makes an
entry among the names or a diagnostic; and every run with these files shows the names and the
diagnostics in the order of the requests, whatever the form and the number of messages asked for. -/
structure AccountsFor (files : Files) (options : Options) (config : Config) (doc : Document)
    (results : List (Except RenderError String)) (log : List LogRecord) : Prop where
  shared : (Call.run doc.graph config.display .fresh
      (doc.requests.map fun request => .render 0 request.subject)).1 =
    results.map fun result => .rendered (result.mapError .broken)
  once : ((doc.requests.zip results).filterMap entryOf?).length +
    ((doc.requests.zip results).filterMap reportOf?).length = doc.requests.length
  runs (arguments : List String) (json : Bool) (verbosity : Nat) :
    parse arguments = .ok { options with json, verbosity } →
      (runArguments files arguments).Shows json (logText verbosity log)
        ((doc.requests.zip results).filterMap entryOf?)
        ((doc.requests.zip results).filterMap reportOf?)

/-- **The runs over a document account for all requests exactly if the walks for all of them end**;
else no run reports anything.

**Proof sketch.** Each request is answered as if it were the only one, along its route as well as by
the shared renderer.  The form and the number of messages play no part before the report. -/
theorem runs_account {files : Files} {options : Options} {config : Config} {doc : Document}
    (hconfig : configOf files options.config = .ok config)
    (hdoc : loadDocument files options.document = .ok doc) :
    ((∃ results log, AccountsFor files options config doc results log) ↔
        ∀ request ∈ doc.requests, request.subject.Ends doc.graph) ∧
      ((∃ request ∈ doc.requests, ¬ request.subject.Ends doc.graph) →
        ∀ arguments json verbosity, parse arguments = .ok { options with json, verbosity } →
          (runArguments files arguments).ending = .endless ∧
            (runArguments files arguments).output = "") := by
  obtain ⟨json, hjson⟩ := exists_json_of_loadDocument hdoc
  have hloaded := Document.loaded_of_ofJson hjson
  have hendless (request) (hrequest : request ∈ doc.requests) :=
    (hloaded.requests request hrequest).endless_iff hloaded.graph config.display (r := {}) rfl
  have hshared : (Call.run doc.graph config.display .fresh
      (doc.requests.map fun request => .render 0 request.subject)).1 =
        doc.requests.map fun request =>
          .rendered (({} : Renderer).render doc.graph config.display request.subject).1 := by
    rw [(CallState.Sound.fresh doc.graph).run_replies, List.map_map]
    rfl
  have hrun (arguments json verbosity)
      (hparse : parse arguments = .ok { options with json, verbosity }) :
      runArguments files arguments = runDocument { options with json, verbosity }
        (configLog config options.config) config doc := by
    rw [runArguments, hparse]
    change run files { options with json, verbosity } = _
    have hsame : configOf files ({ options with json, verbosity } : Options).config = .ok config :=
      hconfig
    rw [run_of_config hsame]
    simp only [hdoc]
  refine ⟨⟨?_, ?_⟩, ?_⟩
  · rintro ⟨results, log, hresults⟩ request hrequest
    by_contra hnot
    have hmem : Reply.rendered (.error .endless) ∈ doc.requests.map fun request =>
        Reply.rendered (({} : Renderer).render doc.graph config.display request.subject).1 :=
      List.mem_map.2 ⟨request, hrequest, congrArg _ ((hendless request hrequest).2 hnot)⟩
    rw [← hshared, hresults.shared] at hmem
    obtain ⟨result, _, hresult⟩ := List.mem_map.1 hmem
    cases result <;> cases hresult
  · intro hends
    obtain ⟨results, hresults⟩ := exists_results
      (fun request : Document.Request =>
        (({} : Renderer).render doc.graph config.display request.subject).1)
      (l := doc.requests) fun request hrequest hresult =>
        (hendless request hrequest).1 hresult (hends request hrequest)
    have hlength : results.length = doc.requests.length := by
      rw [← List.length_map (Except.mapError Fault.broken), ← hresults, List.length_map]
    refine ⟨results, configLog config options.config ++
        documentLoaded doc :: (answers doc config).flatMap Answer.log,
      ⟨?_, length_entries_add_reports hlength, fun arguments json verbosity hparse => ?_⟩⟩
    · have hmap := congrArg (List.map Reply.rendered) hresults
      rw [List.map_map, List.map_map] at hmap
      exact hshared.trans hmap
    · rw [hrun arguments json verbosity hparse]
      exact runDocument_shows { options with json, verbosity } _ config doc hresults
  · rintro ⟨request, hrequest, hnot⟩ arguments json verbosity hparse
    rw [hrun arguments json verbosity hparse]
    exact runDocument_endless _ _ config hrequest ((hendless request hrequest).2 hnot)

/-- The document was read if the run of a plain command line does not report a defect. -/
lemma exists_document {files : Files} {path : String}
    (h : (run files ⟨path, none, false, 0⟩).ending = .endless ∨
      (run files ⟨path, none, false, 0⟩).output ≠ "") :
    ∃ doc, loadDocument files path = .ok doc := by
  have hconfig : configOf files (⟨path, none, false, 0⟩ : Options).config = .ok {} := rfl
  rw [run_of_config hconfig] at h
  cases hdoc : loadDocument files path with
  | ok doc => exact ⟨doc, rfl⟩
  | error failure =>
    rw [hdoc] at h
    cases failure <;> simp [reportFailure, report] at h

/-- A command line of one word, which is a plain path, names the document. -/
lemma parse_document : parse ["g"] = .ok ⟨"g", none, false, 0⟩ := by
  -- paths are split by well-founded recursion, which is followed by its equation
  have hsplit : "g".splitOn "/" = ["g"] := by
    unfold String.splitOn
    rw [if_neg (by decide), String.splitOnAux, if_neg (by decide +kernel),
      if_neg (by decide +kernel), String.splitOnAux, if_pos (by decide +kernel)]
    decide +kernel
  have hplain : plainPath "g" = "g" := by
    rw [plainPath, pathParts, hsplit]
    decide +kernel
  have hparse : parse ["g"] = .ok ⟨plainPath "g", none, false, 0⟩ := rfl
  rw [hparse, hplain]

/-- A class is displayed, and a conversion of it that lacks a result is reported. -/
theorem runs_account_conversion :
    ∃ files doc, configOf files none = .ok {} ∧ loadDocument files "g" = .ok doc ∧
      ((∃ results log, AccountsFor files ⟨"g", none, false, 0⟩ {} doc results log) ↔
        ∀ request ∈ doc.requests, request.subject.Ends doc.graph) ∧
      runArguments files ["g"] =
        ⟨.exit 1, "C\n", "error[render] E-RENDER: conversion operator 'op_Implicit' has no " ++
          "return type\n  note: request: C.op_Implicit\n"⟩ := by
  let files : Files := fun path =>
    if path = "g" then some ("\x7b\"declarations\":[\x7b\"kind\":\"class\",\"name\":\"C\"," ++
      "\"members\":[\x7b\"kind\":\"method\",\"conversion\":\"implicit\"\x7d]\x7d]," ++
      "\"render\":[\x7b\"symbol\":\"C.op_Implicit\"\x7d,\x7b\"type\":\"C\"\x7d]\x7d").toUTF8
    else none
  have hrun : run files ⟨"g", none, false, 0⟩ =
      ⟨.exit 1, "C\n", "error[render] E-RENDER: conversion operator 'op_Implicit' has no " ++
        "return type\n  note: request: C.op_Implicit\n"⟩ := by decide +kernel
  obtain ⟨doc, hdoc⟩ : ∃ doc, loadDocument files "g" = .ok doc :=
    exists_document (.inr (by rw [hrun]; decide))
  have hconfig : configOf files (⟨"g", none, false, 0⟩ : Options).config = .ok {} := rfl
  exact ⟨files, doc, rfl, hdoc, (runs_account hconfig hdoc).1,
    by rw [runArguments, parse_document]; exact hrun⟩

/-- A method that implements itself explicitly is accepted, and no run over the document accounts
for the request for the class. -/
theorem runs_unaccounted :
    ∃ files doc, configOf files none = .ok {} ∧ loadDocument files "g" = .ok doc ∧
      ¬ ∃ results log, AccountsFor files ⟨"g", none, false, 0⟩ {} doc results log := by
  let files : Files := fun path =>
    if path = "g" then some ("\x7b\"declarations\":[\x7b\"kind\":\"class\",\"name\":\"C\"," ++
      "\"members\":[\x7b\"kind\":\"method\",\"name\":\"M\",\"explicit_impl\":" ++
      "\x7b\"type\":\"C\",\"member\":\"C.M\"\x7d\x7d]\x7d]," ++
      "\"render\":[\x7b\"symbol\":\"C.M\"\x7d,\x7b\"type\":\"C\"\x7d]\x7d").toUTF8
    else none
  have hrun : (run files ⟨"g", none, false, 0⟩).ending = .endless := by decide +kernel
  obtain ⟨doc, hdoc⟩ : ∃ doc, loadDocument files "g" = .ok doc := exists_document (.inl hrun)
  refine ⟨files, doc, rfl, hdoc, ?_⟩
  rintro ⟨results, log, haccounts⟩
  have hending := (haccounts.runs ["g"] false 0 parse_document).ending
  rw [runArguments, parse_document] at hending
  rw [hrun] at hending
  cases hending

end CommandLine

end DisplayNames
