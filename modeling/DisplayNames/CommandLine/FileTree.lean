import DisplayNames.CommandLine.Run

/-!
# File trees

Files and directories below a working directory, held in memory, so that a command line can be run
on them without a disk.  A path is followed part by part from the working directory on; a part is
followed only out of a directory, also if it leads back to the enclosing one.  What lies outside of
the working directory cannot be read.

## Main definitions

* `DisplayNames.CommandLine.FileTree` — the files and directories.
* `DisplayNames.CommandLine.FileTree.follow?` — where a path leads.
* `DisplayNames.CommandLine.FileTree.read` — the bytes of a file.
-/

set_option relaxedAutoImplicit false
set_option autoImplicit false

namespace DisplayNames

namespace CommandLine

/-- A file or a directory. -/
inductive FileEntry where
  | file (bytes : ByteArray)
  | directory

/-- Files and directories by the parts of their paths.  Directories that something lies in need no
entry. -/
abbrev FileTree := List (List String × FileEntry)

namespace FileTree

/-- There is a directory at a place: an entry says so, or something lies in it. -/
def isDirectory (tree : FileTree) (place : List String) : Bool :=
  place.isEmpty || tree.any fun (parts, entry) =>
    place.isPrefixOf parts &&
      match entry with
      | .directory => true
      | .file _ => parts != place

/-- The place that the parts of a path lead to from another place. -/
def follow? (tree : FileTree) : (place : List String) → List String → Option (List String)
  | place, [] => some place
  | place, part :: rest =>
    if !tree.isDirectory place then none
    else if part != ".." then follow? tree (place ++ [part]) rest
    else if place.isEmpty then none
    else follow? tree place.dropLast rest

/-- The bytes of the file that a path leads to. -/
def read (tree : FileTree) : Files := fun path =>
  if path.startsWith "/" then none
  else
    match (tree.follow? [] (pathParts path)).bind fun place => Table.get? tree place with
    | some (.file bytes) => some bytes
    | _ => none

end FileTree

end CommandLine

end DisplayNames
