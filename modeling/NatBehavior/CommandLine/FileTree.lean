import NatBehavior.Bytes
import NatBehavior.IoError

/-! Files and directories without links, and what a path leads to. -/
namespace NatBehavior

/-- A place is told by the names that lead to it from the root. -/
abbrev Place := List String

inductive FileNode where
  | file (contents : Bytes)
  | directory
deriving DecidableEq, Repr

structure FileTree where
  nodes : List (Place × FileNode)
  /-- Where relative paths begin. -/
  start : Place
deriving Repr

namespace FileTree

/-- The root and all that leads to something are directories. -/
def node? (tree : FileTree) (place : Place) : Option FileNode :=
  match tree.nodes.lookup place with
  | some node => some node
  | none =>
    if place.isEmpty || tree.nodes.any (place.isPrefixOf ·.1) then some .directory else none

/-- The most bytes of a name, and of a path with the zero byte behind it. -/
def nameLimit : Nat := 255
def pathLimit : Nat := 4096

/-- Goes on from a place, which has to be a directory. An empty name, as beside a slash too many,
stays there. -/
def step (tree : FileTree) (place : Place) (name : String) : Except OsError Place :=
  if tree.node? place ≠ some .directory then .error .notADirectory
  else if name = "" || name = "." then .ok place
  else if name = ".." then .ok place.dropLast
  else if nameLimit < name.utf8ByteSize then .error .nameTooLong
  else
    let next := place ++ [name]
    if (tree.node? next).isSome then .ok next else .error .noSuchFile

/-- Where a path leads. -/
def resolve (tree : FileTree) (path : String) : Except OsError Place :=
  if path.isEmpty then .error .noSuchFile
  else if pathLimit ≤ path.utf8ByteSize then .error .nameTooLong
  else (path.splitOn "/").foldlM tree.step (if path.startsWith "/" then [] else tree.start)

def contains (tree : FileTree) (path : String) : Bool := (tree.resolve path).toBool

def contents (tree : FileTree) (path : String) : Except OsError Bytes := do
  match tree.node? (← tree.resolve path) with
  | some (.file contents) => return contents
  | some .directory => throw .isADirectory
  | none => throw .noSuchFile

end FileTree

end NatBehavior
