import DisplayNames.CommandLine.Path
import DisplayNames.Text.Digit

/-!
# Command lines

A command line names one document and may have these switches in any order:

* `--config FILE` or `--config=FILE`: the configuration;
* `--json`: machine-readable output;
* `-v`, `--verbose`: more messages, once for each time it is given;
* `-h`, `--help`: show the usage and do nothing else.

A long switch may be cut short as long as only one fits.  Short switches may be run together, with
or without an equals sign behind the first one; if one of the letters is no switch, none of them
takes effect.  Behind a double dash everything is a plain word.  A word that starts with a dash is
a plain word only if it is the dash alone, a negative number, or holds a blank and fits no switch.

Readers of command lines have changed in two of these points, and the rules here are the earlier
ones: `-v=v` is the same as `-vv`, where later readers refuse a value behind a switch that takes
none, and `-hx` is wrong, where later readers let the switches in front of the wrong letter take
effect, so that help is shown.

The words are classified first; one that fits several switches is an error before anything else.
Then they take effect from left to right, so that a request for help wins over errors behind it.

## Main definitions

* `DisplayNames.CommandLine.Options` — a command line that can be run.
* `DisplayNames.CommandLine.Word` — a classified word.
* `DisplayNames.CommandLine.classify?` — classification.
* `DisplayNames.CommandLine.consume` — the effect of the words.
* `DisplayNames.CommandLine.parse` — both, and what a command line needs.
-/

set_option relaxedAutoImplicit false
set_option autoImplicit false

namespace DisplayNames

namespace CommandLine

/-- A command line that can be run. -/
structure Options where
  document : String
  config : Option String
  json : Bool
  verbosity : Nat
  deriving DecidableEq, Repr

/-- Why a command line is not run. -/
inductive Refusal where
  /-- It asks for help. -/
  | help
  /-- It is wrong. -/
  | misuse
  deriving DecidableEq, Repr

/-- The switches. -/
inductive Switch where
  | help
  | config
  | json
  | verbose
  deriving DecidableEq, Repr

/-- The spellings of the switches. -/
def spellings : List (List Char × Switch) :=
  [("-h".toList, .help), ("--help".toList, .help), ("--config".toList, .config),
    ("--json".toList, .json), ("-v".toList, .verbose), ("--verbose".toList, .verbose)]

/-- The switch with a spelling. -/
def switch? (spelling : List Char) : Option Switch := spellings.lookup spelling

/-- A classified word. -/
inductive Word where
  | plain (text : String)
  /-- The double dash. -/
  | separator
  /-- A switch, short or long, with the text that stands behind it in the same word. -/
  | switch (switch : Switch) (short : Bool) (attached : Option (List Char))
  /-- A word that looks like a switch and is none. -/
  | unknown
  deriving DecidableEq, Repr

/-! ## Classification -/

/-- The texts in front of and behind the first equals sign. -/
def splitEquals? (word : List Char) : Option (List Char × List Char) :=
  match word.span (· ≠ '=') with
  | (before, '=' :: behind) => some (before, behind)
  | _ => none

/-- A minus sign with decimal digits, or with decimal digits around a point; in front of the point
there may be none.  A line may end behind the number. -/
def isNegativeNumber : List Char → Bool
  | '-' :: rest =>
    let (whole, behind) := rest.span Text.isDecimalDigit
    match behind with
    | [] | ['\n'] => !whole.isEmpty
    | '.' :: rest =>
      let (fraction, behind) := rest.span Text.isDecimalDigit
      !fraction.isEmpty && (behind = [] || behind = ['\n'])
    | _ => false
  | _ => false

/-- A spelling starts with a second dash. -/
def isLong : List Char → Bool
  | '-' :: '-' :: _ => true
  | _ => false

/-- The switches that a word fits without being the exact spelling of one: a long switch cut short,
or a short one with letters behind it. -/
def candidates (word : List Char) : List Word :=
  if isLong word then
    let (start, attached) : List Char × Option (List Char) := match splitEquals? word with
      | some (start, text) => (start, some text)
      | none => (word, none)
    (spellings.filter fun (spelling, _) => start.isPrefixOf spelling).map fun (_, switch) =>
      .switch switch false attached
  else
    match switch? (word.take 2) with
    | some switch => [.switch switch true (some (word.drop 2))]
    | none => []

/-- The class of a word in front of the double dash; none if it fits several switches. -/
def classify? (text : String) : Option Word :=
  let word := text.toList
  match word with
  | '-' :: _ :: _ =>
    let behindEquals := (splitEquals? word).bind fun (spelling, attached) =>
      (switch? spelling).map fun switch =>
        Word.switch switch (!isLong spelling) (some attached)
    match (switch? word).map fun switch => Word.switch switch (!isLong word) none, behindEquals with
    | some exact, _ => some exact
    | none, some behindEquals => some behindEquals
    | none, none =>
      match candidates word with
      | [candidate] => some candidate
      | [] =>
        if isNegativeNumber word || word.contains ' ' then some (.plain text) else some .unknown
      | _ => none
  | _ => some (.plain text)

/-- The classes of all words; none if one fits several switches. -/
def classifyAll? : List String → Option (List Word)
  | [] => some []
  | "--" :: rest => some (.separator :: rest.map .plain)
  | word :: rest => (classify? word).bind fun word => (classifyAll? rest).map (word :: ·)

/-! ## Effects -/

/-- What the words so far amount to. -/
structure Progress where
  document : Option String := none
  config : Option String := none
  json : Bool := false
  verbosity : Nat := 0
  /-- There was a word with no place. -/
  surplus : Bool := false

/-- The effect of a switch that takes no value. -/
def Progress.act (p : Progress) : Switch → Except Refusal Progress
  | .help => .error .help
  | .json => .ok { p with json := true }
  | .verbose => .ok { p with verbosity := p.verbosity + 1 }
  | .config => .error .misuse

/-- The effects of several switches. -/
def Progress.actAll (p : Progress) : List Switch → Except Refusal Progress
  | [] => .ok p
  | switch :: rest =>
    match p.act switch with
    | .error refusal => .error refusal
    | .ok p => p.actAll rest

/-- The short switches that are run together: a first one and one for each of the letters behind
it, of which there is at least one. -/
def together? (first : Switch) (letters : List Char) : Option (List Switch) :=
  if letters.isEmpty then none
  else (letters.mapM fun c => switch? ['-', c]).map (first :: ·)

/-- The effect of a switch without a value, with the text that stands behind it.  Behind a short
switch the text must be letters of further ones, and a long switch cannot have any. -/
def Progress.flag (p : Progress) (switch : Switch) (short : Bool) :
    Option (List Char) → Except Refusal Progress
  | none => p.act switch
  | some text =>
    match if short then together? switch text else none with
    | none => .error .misuse
    | some switches => p.actAll switches

/-- The effect of the words.  The double dash belongs to the document if it stands next to it and
is surplus elsewhere. -/
def consume (p : Progress) : List Word → Except Refusal Progress
  | [] => .ok p
  | .switch .config _ (some value) :: rest =>
    consume { p with config := some (String.ofList value) } rest
  | .switch .config _ none :: .plain value :: rest => consume { p with config := some value } rest
  | .switch .config _ none :: _ => .error .misuse
  | .switch switch short attached :: rest =>
    match p.flag switch short attached with
    | .error refusal => .error refusal
    | .ok p => consume p rest
  | .separator :: .plain text :: rest =>
    if p.document.isNone then consume { p with document := some text } rest
    else consume { p with surplus := true } rest
  | .plain text :: .separator :: rest =>
    if p.document.isNone then consume { p with document := some text } rest
    else consume { p with surplus := true } rest
  | .plain text :: rest =>
    if p.document.isNone then consume { p with document := some text } rest
    else consume { p with surplus := true } rest
  | .separator :: rest => consume { p with surplus := true } rest
  | .unknown :: rest => consume { p with surplus := true } rest

/-- The options of a command line.  It must name a document and nothing may be left over. -/
def parse (arguments : List String) : Except Refusal Options :=
  match classifyAll? arguments with
  | none => .error .misuse
  | some words =>
    match consume {} words with
    | .error refusal => .error refusal
    | .ok p =>
      match p.document, p.surplus with
      | some document, false =>
        .ok ⟨plainPath document, p.config.map plainPath, p.json, p.verbosity⟩
      | _, _ => .error .misuse

/-- The usage, shown for help and for a wrong command line.  What else is shown with it, the
explanation of the switches behind it or the mistake in the command line, is left out. -/
def usage : String :=
  "usage: diagnames [-h] [--config CONFIG] [--json] [-v] document\n"

end CommandLine

end DisplayNames
