import SqlAudit.Failure
import SqlAudit.Text.Basic

/-!
Files in memory, below one directory.  Paths are relative to that directory; outside of it there are
no files.
-/

namespace SqlAudit

/-- Files by the parts of their paths. -/
structure Directory where
  files : List (List String × List UInt8)

/-- What a path leads to. -/
inductive Entry where
  | file (bytes : List UInt8)
  | directory
  | missing
  deriving DecidableEq, Repr

namespace Directory

def parts (path : String) : List String := (Text.pieces (· == '/') path.toList).map String.ofList

/-- Files with their paths, each of which leads down from the directory. -/
def ofFiles (files : List (String × List UInt8)) : Directory :=
  ⟨files.map fun (path, bytes) => ((parts path).filter fun p => p != "" && p != ".", bytes)⟩

/-- What stands at a place; a directory is there if a file is below it. -/
def entry (d : Directory) (place : List String) : Entry :=
  match d.files.lookup place with
  | some bytes => .file bytes
  | none =>
    if place.isEmpty || d.files.any fun file => place.isPrefixOf file.1 then .directory else .missing

def longestName : Nat := 255

def longestPath : Nat := 4095

/-- Whether a part of a path names nothing. -/
def isStep (part : String) : Bool := part == "" || part == "." || part == ".."

/-- What a path leads to from outside of the directory, where directories are but nothing that has a
name. -/
def outside (parts : List String) : Except ReadFailure Entry :=
  if parts.all isStep then .ok .directory else .error .missing

def follow (d : Directory) : (place : List String) → List String → Except ReadFailure Entry
  | place, [] => .ok (d.entry place)
  | place, part :: rest =>
    match d.entry place with
    | .file _ => .error .notDirectory
    | .missing => .error .missing
    | .directory =>
      if part = "" ∨ part = "." then d.follow place rest
      else if part = ".." then
        if place.isEmpty then outside rest else d.follow place.dropLast rest
      else if longestName < part.utf8ByteSize then .error .nameTooLong
      else d.follow (place ++ [part]) rest

def find (d : Directory) (path : String) : Except ReadFailure Entry :=
  if path.toList.contains '\x00' then .error .zeroByte
  else if longestPath < path.utf8ByteSize then .error .nameTooLong
  else if path.isEmpty then .error .missing
  else if path.startsWith "/" then outside (parts path)
  else d.follow [] (parts path)

def read (d : Directory) (path : String) : Except ReadFailure (List UInt8) := do
  match ← d.find path with
  | .file bytes => .ok bytes
  | .directory => .error .isDirectory
  | .missing => .error .missing

end Directory
end SqlAudit
