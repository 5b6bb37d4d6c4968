import DisplayNames.Render.Error

/-!
# Sessions

A session collects the text of one display name.  It is opened, appended to and closed; opening an
open session, or appending to or closing a closed one, is an error and changes nothing.

## Main definitions

* `DisplayNames.Session` — the texts appended so far, if the session is open.
* `DisplayNames.Session.begin`, `DisplayNames.Session.append`, `DisplayNames.Session.finish`,
  `DisplayNames.Session.discard` — the four operations.
-/

set_option relaxedAutoImplicit false
set_option autoImplicit false

namespace DisplayNames

/-- The texts appended since the session was opened; none if it is closed. -/
structure Session where
  texts : Option (List String) := none
  deriving DecidableEq, Repr

namespace Session

/-- A session that is not open. -/
def closed : Session := {}

/-- The session is open. -/
def isOpen (s : Session) : Bool := s.texts.isSome

/-- Opens a closed session. -/
def begin (s : Session) : Except RenderError Session :=
  match s.texts with
  | some _ => .error .sessionInProgress
  | none => .ok ⟨some []⟩

/-- Appends a text to an open session. -/
def append (s : Session) (text : String) : Except RenderError Session :=
  match s.texts with
  | none => .error .appendOutsideSession
  | some texts => .ok ⟨some (texts ++ [text])⟩

/-- Closes an open session and gives what was appended. -/
def finish (s : Session) : Except RenderError (String × Session) :=
  match s.texts with
  | none => .error .sessionNotStarted
  | some texts => .ok (String.join texts, closed)

/-- Closes a session and forgets what was appended. -/
def discard (_ : Session) : Session := closed

end Session

end DisplayNames
