import DisplayNames.Argument
import DisplayNames.CommandLine.Log
import DisplayNames.CommandLine.Options
import DisplayNames.Config
import DisplayNames.Diagnostic
import DisplayNames.Document.Load
import DisplayNames.Json.Reader
import DisplayNames.Json.Writer

/-!
# Running a command line

Reads the configuration, if one is named, and the document, answers all requests of the document in
order and reports the names and the failures.  A defect of either file is reported and ends the run;
a request that fails is reported and the others go on.

Files are a function from paths to bytes, so a run is a function of the command line and the files.

## Main definitions

* `DisplayNames.CommandLine.Files` — what can be read.
* `DisplayNames.CommandLine.answer` — the outcome for one subject.
* `DisplayNames.CommandLine.Answer` — the outcome of one request.
* `DisplayNames.CommandLine.answerAll` — the outcomes of the requests of a document.
* `DisplayNames.CommandLine.Outcome` — the outcome of a run.
* `DisplayNames.CommandLine.run`, `DisplayNames.CommandLine.runArguments` — a run.
-/

set_option relaxedAutoImplicit false
set_option autoImplicit false

namespace DisplayNames

namespace CommandLine

/-! ## Files -/

/-- The bytes of the files that can be read. -/
abbrev Files := String → Option ByteArray

/-- Why a file gives no value. -/
inductive ReadFailure where
  | unreadable
  /-- The bytes are not UTF-8. -/
  | undecodable
  | notJson
  deriving DecidableEq, Repr

/-- The JSON value in a file. -/
def readJson (files : Files) (path : String) : Except ReadFailure Json :=
  match files path with
  | none => .error .unreadable
  | some bytes =>
    match String.fromUTF8? bytes with
    | none => .error .undecodable
    | some text =>
      match Json.read? text with
      | none => .error .notJson
      | some value => .ok value

/-- Why a run ends before any request is answered. -/
inductive Failure where
  | config (error : ConfigError)
  | document (error : DocumentError)
  /-- A file is not UTF-8; this is not reported but escapes. -/
  | undecodable

/-- The configuration in a file. -/
def loadConfig (files : Files) (path : String) : Except Failure Config :=
  match readJson files path with
  | .error .unreadable => .error (.config (.unreadable path))
  | .error .undecodable => .error .undecodable
  | .error .notJson => .error (.config (.notJson path))
  | .ok value => (Config.ofJson value).mapError .config

/-- The document in a file. -/
def loadDocument (files : Files) (path : String) : Except Failure Document :=
  match readJson files path with
  | .error .unreadable => .error (.document (.unreadable path))
  | .error .undecodable => .error .undecodable
  | .error .notJson => .error (.document (.notJson path))
  | .ok value => (Document.ofJson value).mapError .document

/-! ## Requests -/

/-- The outcome of one request. -/
structure Answer where
  label : Json
  result : Except Fault String
  /-- The texts that a failing walk had produced. -/
  partialTexts : List String

/-- The text of a reference that is formatted as an argument of a diagnostic. -/
def formatted (arg : Argument) (g : Graph) (display : Display) (renderer : Renderer) :
    Except Fault String × Renderer :=
  let (result, memo) := arg.format g display renderer.memo
  -- a reference always has a text, so the default is never used
  (result.map fun formatted => (formatted.bind Formatted.text).getD "", { renderer with memo })

/-- The outcome for one subject.  Types, and symbols with their arguments, are formatted; symbols
without arguments go to the renderer itself. -/
def answer (g : Graph) (display : Display) (renderer : Renderer) :
    Subject → Except Fault String × Renderer
  | .type t ctx => formatted (.type t ctx) g display renderer
  | .symbol id ctx true => formatted (.symbol id ctx) g display renderer
  | .symbol id ctx false => renderer.render g display (.symbol id ctx false)

/-- The outcomes of requests, one after another. -/
def answerAll (g : Graph) (display : Display) : Renderer → List Document.Request → List Answer
  | _, [] => []
  | renderer, request :: rest =>
    let texts := (renderer.rendering g display request.subject).parts display.catalog
    let (result, renderer) := answer g display renderer request.subject
    ⟨request.label, result, texts⟩ :: answerAll g display renderer rest

/-- The outcomes of the requests of a document. -/
def answers (d : Document) (config : Config) : List Answer :=
  answerAll d.graph config.display {} d.requests

/-- The entry of a rendered name. -/
def Answer.entry? (a : Answer) : Option (Json × String) :=
  match a.result with
  | .ok text => some (a.label, text)
  | .error _ => none

/-- The report of a failed request. -/
def Answer.diagnostic? (a : Answer) : Option Diagnostic :=
  match a.result with
  | .error (.broken error) =>
    some
      { message := error.message
        code := some "E-RENDER"
        phase := some "render"
        notes := ["request: " ++ a.label.display] }
  | _ => none

/-- The progress messages of a failed request. -/
def Answer.log (a : Answer) : List LogRecord :=
  let discarded : LogRecord :=
    ⟨.debug, "render.session", "discarding partial render: ["
      ++ ", ".intercalate (a.partialTexts.map Text.quoted) ++ "]"⟩
  match a.result with
  | .ok _ => []
  | .error .endless => [discarded]
  | .error (.broken error) =>
    [discarded, ⟨.info, "cli", "render of " ++ a.label.display ++ " failed: " ++ error.message⟩]

/-! ## Runs -/

/-- How a run ends. -/
inductive Ending where
  | exit (code : Nat)
  /-- A file is not UTF-8. -/
  | undecodable
  /-- A walk over a cyclic graph does not end. -/
  | endless
  deriving DecidableEq, Repr

/-- The outcome of a run. -/
structure Outcome where
  ending : Ending
  output : String
  errors : String
  deriving DecidableEq, Repr

/-- The exit code: one if there is anything of severity error to report. -/
def exitCode (diagnostics : List Diagnostic) : Nat :=
  if diagnostics.any (·.severity == "error") then 1 else 0

/-- The value that is written for machines. -/
def payload (entries : List (Json × String)) (diagnostics : List Diagnostic) : Json :=
  .obj [("exit_code", .int (exitCode diagnostics)),
    ("names", .arr (entries.map fun (label, text) => .obj [("label", label), ("text", .str text)])),
    ("diagnostics", .arr (diagnostics.map Diagnostic.toJson))]

/-- The end of a run that reports names and diagnostics. -/
def report (options : Options) (log : List LogRecord) (entries : List (Json × String))
    (diagnostics : List Diagnostic) : Outcome :=
  let logged := logText options.verbosity log
  let code := .exit (exitCode diagnostics)
  if options.json then ⟨code, (payload entries diagnostics).text ++ "\n", logged⟩
  else
    ⟨code, String.join (entries.map fun (_, text) => text ++ "\n"),
      logged ++ String.join (diagnostics.map fun d => d.text ++ "\n")⟩

/-- The end of a run that answered no request. -/
def reportFailure (options : Options) (log : List LogRecord) : Failure → Outcome
  | .config error =>
    report options log [] [{ message := error.message, phase := some "config" }]
  | .document error =>
    report options log []
      [{ message := error.message, phase := some "load", notes := [options.document] }]
  | .undecodable => ⟨.undecodable, "", logText options.verbosity log⟩

/-- The progress message about a configuration. -/
def configLoaded (path : String) (config : Config) : LogRecord :=
  ⟨.debug, "config", "loaded config " ++ path ++ ": " ++ toString config.messages.length
    ++ " message overrides, " ++ toString config.niceNames.length ++ " nice names"⟩

/-- The progress message about a document. -/
def documentLoaded (d : Document) : LogRecord :=
  ⟨.debug, "graph_json", "graph document: " ++ toString d.registry.length ++ " symbols, "
    ++ toString d.requests.length ++ " render requests"⟩

/-- The answers up to and including the first walk that does not end. -/
def untilEndless : List Answer → List Answer × Bool
  | [] => ([], false)
  | a :: rest =>
    match a.result with
    | .error .endless => ([a], true)
    | _ =>
      let (answers, endless) := untilEndless rest
      (a :: answers, endless)

/-- The run of a document under a configuration. -/
def runDocument (options : Options) (log : List LogRecord) (config : Config) (d : Document) :
    Outcome :=
  let (answers, endless) := untilEndless (answers d config)
  let log := log ++ documentLoaded d :: answers.flatMap Answer.log
  if endless then ⟨.endless, "", logText options.verbosity log⟩
  else report options log (answers.filterMap Answer.entry?) (answers.filterMap Answer.diagnostic?)

/-- A run.  The configuration is read before the document. -/
def run (files : Files) (options : Options) : Outcome :=
  let config : Except Failure (Config × List LogRecord) :=
    match options.config with
    | none => .ok ({}, [])
    | some path => (loadConfig files path).map fun config => (config, [configLoaded path config])
  match config with
  | .error failure => reportFailure options [] failure
  | .ok (config, log) =>
    match loadDocument files options.document with
    | .error failure => reportFailure options log failure
    | .ok d => runDocument options log config d

/-- The run of a command line.  The usage goes to the output if it was asked for, and to the error
output with exit code two if the command line is wrong. -/
def runArguments (files : Files) (arguments : List String) : Outcome :=
  match parse arguments with
  | .ok options => run files options
  | .error .help => ⟨.exit 0, usage, ""⟩
  | .error .misuse => ⟨.exit 2, "", usage⟩

end CommandLine

end DisplayNames
