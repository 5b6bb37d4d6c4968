/-!
# Paths

Paths are shown in a plain form: single slashes, no parts that are a single dot, no slash at the
end.  Nothing else is resolved, a leading pair of slashes stays, and the empty path is a dot.

## Main definitions

* `DisplayNames.CommandLine.pathParts` — the parts of a path.
* `DisplayNames.CommandLine.plainPath` — the plain form of a path.
-/

set_option relaxedAutoImplicit false
set_option autoImplicit false

namespace DisplayNames

namespace CommandLine

/-- The slashes that make a path absolute: two of them are kept, three or more count as one. -/
def pathRoot : List Char → String
  | '/' :: '/' :: '/' :: _ => "/"
  | '/' :: '/' :: _ => "//"
  | '/' :: _ => "/"
  | _ => ""

/-- The parts of a path that lead somewhere. -/
def pathParts (path : String) : List String :=
  (path.splitOn "/").filter fun part => part != "" && part != "."

/-- The plain form of a path. -/
def plainPath (path : String) : String :=
  let plain := pathRoot path.toList ++ "/".intercalate (pathParts path)
  if plain = "" then "." else plain

end CommandLine

end DisplayNames
