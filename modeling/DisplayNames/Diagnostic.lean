import DisplayNames.Json.Basic

/-!
# Diagnostics

The driver's own reports: a message with the step that produced it, an optional code and notes.

## Main definitions

* `DisplayNames.Diagnostic` — a report.
* `DisplayNames.Diagnostic.toJson` — for machines.
* `DisplayNames.Diagnostic.text` — for people: one line, and one more for each note.
-/

set_option relaxedAutoImplicit false
set_option autoImplicit false

namespace DisplayNames

/-- A report of the driver. -/
structure Diagnostic where
  message : String
  code : Option String := none
  /-- The step that produced it. -/
  phase : Option String := none
  severity : String := "error"
  notes : List String := []

namespace Diagnostic

/-- The field of a text that may be absent. -/
def jsonOfOption : Option String → Json
  | none => .null
  | some s => .str s

/-- A diagnostic for machines. -/
def toJson (d : Diagnostic) : Json :=
  .obj [("phase", jsonOfOption d.phase), ("code", jsonOfOption d.code), ("message", .str d.message),
    ("severity", .str d.severity), ("notes", .arr (d.notes.map .str))]

/-- A diagnostic for people.  An empty phase or code is left out like an absent one. -/
def text (d : Diagnostic) : String :=
  let nonempty (s : Option String) : Option String := s.filter (· != "")
  let phase := ((nonempty d.phase).map fun phase => "[" ++ phase ++ "]").getD ""
  let code := ((nonempty d.code).map fun code => " " ++ code).getD ""
  "\n".intercalate
    ((d.severity ++ phase ++ code ++ ": " ++ d.message) ::
      d.notes.map fun note => "  note: " ++ note)

end Diagnostic

end DisplayNames
