import DisplayNames.Json.Literal
import DisplayNames.Render.Renderer

/-!
# Configurations

A configuration is a JSON object that overrides canned phrases and extends or replaces the nice
names:

* `messages`: an object from keys of phrases to texts;
* `nice_names`: an object from qualified names to nice names;
* `replace_nice_names`: whether the built-in nice names are dropped.

## Main definitions

* `DisplayNames.Config` — a configuration.
* `DisplayNames.ConfigError` — what can be wrong with one.
* `DisplayNames.Config.ofJson` — reading.
* `DisplayNames.Config.display` — the catalog and the nice names it stands for.
-/

set_option relaxedAutoImplicit false
set_option autoImplicit false

namespace DisplayNames

/-- A configuration. -/
structure Config where
  messages : Table MessageId String := []
  niceNames : Table String String := []
  replaceNiceNames : Bool := false

/-- What can be wrong with a configuration. -/
inductive ConfigError where
  | notObject
  /-- Keys that no configuration has, in increasing order. -/
  | unknownKeys (keys : List String)
  | messagesNotObject
  | unknownMessage (key : String)
  | messageNotString (key : String)
  | niceNamesNotStrings
  | replaceNotBoolean
  /-- The file could not be read.  Why, is for the system to say and is not kept. -/
  | unreadable (path : String)
  /-- The file is not JSON.  Where and why reading stopped is not kept. -/
  | notJson (path : String)
  deriving DecidableEq, Repr

/-- The wording of a configuration error.  For a file that could not be read or is not JSON it ends
in front of the colon and the explanation in the words of the system or of the reader of JSON, as
for documents. -/
def ConfigError.message : ConfigError → String
  | .notObject => "config must be a JSON object"
  | .unknownKeys keys => "unknown config keys: " ++ ", ".intercalate keys
  | .messagesNotObject => "'messages' must be an object"
  | .unknownMessage key => "unknown message id: " ++ Text.quoted key
  | .messageNotString key => "message " ++ Text.quoted key ++ " must be a string"
  | .niceNamesNotStrings => "'nice_names' must map declaration names to strings"
  | .replaceNotBoolean => "'replace_nice_names' must be a boolean"
  | .unreadable path => "cannot read config " ++ path
  | .notJson path => "config " ++ path ++ " is not valid JSON"

namespace Config

/-- The keys that a configuration may have. -/
def knownKeys : List String := ["messages", "nice_names", "replace_nice_names"]

/-- The overridden phrases.  The first wrong key or text in the order of the input is reported. -/
def readMessages : List (String × Json) → Except ConfigError (List (MessageId × String))
  | [] => .ok []
  | (key, text) :: rest =>
    match MessageId.ofKey? key, text with
    | none, _ => .error (.unknownMessage key)
    | some id, .str text => (readMessages rest).map ((id, text) :: ·)
    | some _, _ => .error (.messageNotString key)

/-- The nice names; all of them must be texts. -/
def readNiceNames : List (String × Json) → Except ConfigError (Table String String)
  | [] => .ok []
  | (path, .str name) :: rest => (readNiceNames rest).map ((path, name) :: ·)
  | _ :: _ => .error .niceNamesNotStrings

/-- Reads a configuration. -/
def ofJson : Json → Except ConfigError Config
  | .obj fields => do
    let unknown := (fields.map (·.1)).filter fun key => !knownKeys.contains key
    if !unknown.isEmpty then
      throw (.unknownKeys (unknown.mergeSort fun a b => !(b < a)))
    let messages ← match Table.get? fields "messages" with
      | none => pure []
      | some (.obj messages) => readMessages messages
      | some _ => throw .messagesNotObject
    let niceNames ← match Table.get? fields "nice_names" with
      | none => pure []
      | some (.obj names) => readNiceNames names
      | some _ => throw .niceNamesNotStrings
    let replace ← match Table.get? fields "replace_nice_names" with
      | none => pure false
      | some (.bool replace) => pure replace
      | some _ => throw .replaceNotBoolean
    return ⟨messages, niceNames, replace⟩
  | _ => .error .notObject

/-- The nice names that a configuration stands for. -/
def allNiceNames (config : Config) : NiceNames :=
  Table.insertMany (if config.replaceNiceNames then [] else NiceNames.default) config.niceNames

/-- The catalog and the nice names that a configuration stands for. -/
def display (config : Config) : Display :=
  ⟨.ofOverrides config.messages, config.allNiceNames⟩

end Config

end DisplayNames
