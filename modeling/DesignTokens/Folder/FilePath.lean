/-
# DesignTokens.Folder.FilePath -- the names of files as a user writes them

A path is a sequence of names, absolute or not.  Empty names and single dots say nothing and are
dropped when a path is read, so paths that a user may spell in several ways are shown in one
(`toText`).
-/

namespace DesignTokens

set_option autoImplicit false

structure FilePath where
  /-- What stands in front of an absolute path: one slash, or exactly two; nothing in front of any
  other path. -/
  root : String
  names : List String
  deriving DecidableEq, Repr

namespace FilePath

def rootOf (text : List Char) : String :=
  match (text.takeWhile (· == '/')).length with
  | 0 => ""
  | 2 => "//"
  | _ => "/"

/-- The pieces of a text between slashes. -/
def pieces : List Char → List (List Char)
  | [] => [[]]
  | '/' :: rest => [] :: pieces rest
  | c :: rest =>
      match pieces rest with
      | piece :: more => (c :: piece) :: more
      | [] => [[c]]

def saysSomething (name : String) : Bool :=
  name != "" && name != "."

def ofText (text : String) : FilePath where
  root := rootOf text.toList
  names := ((pieces text.toList).map String.ofList).filter saysSomething

def toText (p : FilePath) : String :=
  match p.root ++ "/".intercalate p.names with
  | "" => "."
  | text => text

/-- The last name; none is left of the current folder and of a root. -/
def lastName (p : FilePath) : String :=
  p.names.getLastD ""

end FilePath

end DesignTokens
