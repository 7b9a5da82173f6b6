import MonkeyTokens.FileReader

/-!
# File trees

Files that are given with their paths, and reading from them.  A path is walked name by
name from the directory that holds the files.  An empty name, as between two slashes or
behind the last one, stands for the directory it is looked up in, so that it cannot be
looked up in a file.

Nothing is known of what lies outside the tree, above it or at an absolute path, but that
the directories there are directories.  So this is one way of reading among others, for
runs whose files are all given.
-/

namespace MonkeyTokens

/-- The files below a directory, each with the names that lead to it and its bytes. -/
structure FileTree where
  files : List (List String × List UInt8)
  deriving DecidableEq, Repr

namespace FileTree

/-- Where a path can lead. -/
inductive Place where
  | directory (path : List String)
  | file (content : List UInt8)
  | outside
  deriving DecidableEq, Repr

/-- The names of a path. -/
def names (path : String) : List String :=
  (path.toList.splitOn '/').map String.ofList

/-- The tree of some files with their paths. -/
def ofFiles (files : List (String × List UInt8)) : FileTree where
  files := files.map fun (path, content) =>
    ((names path).filter (fun name => name ≠ "" ∧ name ≠ "."), content)

/-- The bytes of the file to which the names lead, if there is one. -/
def file? (t : FileTree) (path : List String) : Option (List UInt8) :=
  t.files.lookup path

/-- Holds if there is a file somewhere below the directory to which the names lead. -/
def hasDirectory (t : FileTree) (path : List String) : Bool :=
  t.files.any (fun f => path.isPrefixOf f.1 && f.1 != path)

/-- Follows one name from a place. -/
def enter (t : FileTree) : Place → String → Except ReadError Place
  | .file _, _ => .error .notDirectory
  | .outside, name =>
    if name ∈ ["", ".", ".."] then .ok .outside else .error .notFound
  | .directory path, name =>
    if name ∈ ["", "."] then .ok (.directory path)
    else if name = ".." then
      .ok (if path = [] then .outside else .directory path.dropLast)
    else
      match t.file? (path ++ [name]) with
      | some content => .ok (.file content)
      | none =>
        if t.hasDirectory (path ++ [name]) then .ok (.directory (path ++ [name]))
        else .error .notFound

/-- Where a path leads.  The empty path leads nowhere. -/
def find (t : FileTree) (path : String) : Except ReadError Place :=
  if path = "" then .error .notFound
  else
    let start := if path.startsWith "/" then Place.outside else Place.directory []
    (names path).foldlM t.enter start

/-- The bytes of the file to which a path leads. -/
def readBytes (t : FileTree) (path : String) : Except ReadError (List UInt8) := do
  match ← t.find path with
  | .file content => .ok content
  | _ => .error .isDirectory

end FileTree

/-- Reading from the tree of some files with their paths. -/
def FileReader.ofFiles (files : List (String × List UInt8)) : FileReader :=
  (FileTree.ofFiles files).readBytes

end MonkeyTokens
