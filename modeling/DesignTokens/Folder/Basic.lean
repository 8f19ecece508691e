/-
# DesignTokens.Folder.Basic -- a working folder

A folder holds files and folders by the chain of names that leads to them.  A path is looked up name
by name from the working folder on.  Two dots lead back up; what lies above the working folder is a
folder of which nothing else is known, and so is the root.  Only the null device is known besides:
it reads as empty and swallows what is written.  Reading and writing fail for the reasons a file
system has, and the first name that cannot be followed decides.
-/
import DesignTokens.Folder.FilePath
import DesignTokens.Folder.Problem

namespace DesignTokens

set_option autoImplicit false

/-- The files and folders below a working folder. -/
structure Folder where
  files : List (List String × ByteArray)
  folders : List (List String)

namespace Folder

def empty : Folder := ⟨[], []⟩

def file? (f : Folder) (chain : List String) : Option ByteArray :=
  f.files.lookup chain

/-- The working folder itself is one, and so is whatever leads to something. -/
def isFolder (f : Folder) (chain : List String) : Bool :=
  chain.isEmpty || (f.folders ++ f.files.map fun e => e.1.dropLast).any (chain.isPrefixOf ·)

/-- Longer names are refused, by bytes. -/
def maxName : Nat := 255

/-- Paths of this many bytes or more are refused. -/
def pathLimit : Nat := 4096

def tooLong (p : FilePath) : Bool :=
  pathLimit ≤ p.toText.utf8ByteSize

/-- Follows names from a chain that leads to a folder; the chain of the last name, which need not
lead to anything. -/
def follow (f : Folder) (chain : List String) : List String → Except FileProblem (List String)
  | [] => .ok chain
  | ".." :: rest =>
      if chain.isEmpty then if rest.all (· == "..") then .ok [] else .error .missing
      else f.follow chain.dropLast rest
  | [name] => if maxName < name.utf8ByteSize then .error .nameTooLong else .ok (chain ++ [name])
  | name :: rest =>
      if maxName < name.utf8ByteSize then .error .nameTooLong
      else if f.isFolder (chain ++ [name]) then f.follow (chain ++ [name]) rest
      else if (f.file? (chain ++ [name])).isSome then .error .notADirectory
      else .error .missing

/-- The chain that a path names, or the empty chain for a folder outside. -/
def locate (f : Folder) (p : FilePath) : Except FileProblem (List String) :=
  if tooLong p then .error .nameTooLong
  else if p.root == "" then f.follow [] p.names
  else if p.names.all (· == "..") then .ok []
  else .error .missing

def isNullDevice (p : FilePath) : Bool :=
  p.root != "" && p.names == ["dev", "null"]

def read (f : Folder) (p : FilePath) : Except FileProblem ByteArray :=
  if isNullDevice p then .ok ByteArray.empty
  else
    match f.locate p with
    | .error problem => .error problem
    | .ok chain =>
      match f.file? chain with
      | some bytes => .ok bytes
      | none => if f.isFolder chain then .error .directory else .error .missing

/-- Replaces a file in its place, or adds it at the end. -/
def put (bytes : ByteArray) (chain : List String) :
    List (List String × ByteArray) → List (List String × ByteArray)
  | [] => [(chain, bytes)]
  | (c, old) :: rest =>
      if c == chain then (chain, bytes) :: rest else (c, old) :: put bytes chain rest

def write (f : Folder) (p : FilePath) (bytes : ByteArray) : Except FileProblem Folder :=
  if isNullDevice p then .ok f
  else
    match f.locate p with
    | .error problem => .error problem
    | .ok chain =>
        if f.isFolder chain then .error .directory
        else .ok { f with files := put bytes chain f.files }

end Folder

end DesignTokens
