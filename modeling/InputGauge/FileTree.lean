import InputGauge.Errno
import InputGauge.Node
import InputGauge.Text.Bytes

/-!
# File trees

The part of a file system that matters to a tool: what a path leads to. A path is followed name by
name from the root or from the working directory. Each name but the last must lead to a directory,
and so must the last if `/`, `.` or `..` comes after it. A link is replaced by its target, so often
and no more.

To a tool a path is only something to open, and a `Host` may open paths in any way. A file tree
gives one of them, that of a real file system (`Host.ofFiles`).
-/

namespace InputGauge

/-- What stands under a name. -/
inductive Entry where
  | directory
  /-- A file that is no input device. -/
  | file
  | link (target : Bytes)
  | device (node : Node)

/-- A place in a file tree: the names that lead to it from the root. -/
abbrev Place := List Bytes

/-- A file tree, and the directory in which relative paths begin. -/
structure FileTree where
  entries : List (Place × Entry)
  working : Place

namespace FileTree

/-- What stands at a place. The root is always a directory. -/
def entry? (t : FileTree) : Place → Option Entry
  | [] => some .directory
  | place => t.entries.lookup place

/-- Whether a directory stands at a place. -/
def isDirectory (t : FileTree) (place : Place) : Bool :=
  match t.entry? place with
  | some .directory => true
  | _ => false

/-- The names in a path. One before a leading `/`, after a trailing `/` or between two is empty. -/
def names (path : Bytes) : List Bytes := path.splitOn Bytes.slash

/-- The place where a path begins that is met in a directory. -/
def start (directory : Place) (path : Bytes) : Place :=
  if path.head? = some Bytes.slash then [] else directory

/-- The name of a directory in itself, and of the one above it. -/
def here : Bytes := .ofString "."
def above : Bytes := .ofString ".."

/-- The most bytes in one name. -/
def longestName : Nat := 255

/-- The most bytes in a path. -/
def longestPath : Nat := 4095

/-- The most links that are followed on the way to one file. -/
def mostLinks : Nat := 40

/-- Follows names from a place, over a bounded number of links. -/
def follow (t : FileTree) (links : Nat) (place : Place) (path : List Bytes) :
    Except Errno Entry :=
  match path with
  | [] =>
    match t.entry? place with
    | some entry => .ok entry
    | none => .error .noEntry
  | name :: rest =>
    if !t.isDirectory place then .error .notDirectory
    else if name = [] ∨ name = here then t.follow links place rest
    else if name = above then t.follow links place.dropLast rest
    else if longestName < name.length then .error .nameTooLong
    else
      match t.entry? (place ++ [name]), links with
      | none, _ => .error .noEntry
      | some (.link _), 0 => .error .tooManyLinks
      | some (.link target), links + 1 => t.follow links (start place target) (names target ++ rest)
      | some _, links => t.follow links (place ++ [name]) rest
termination_by (links, path.length)

/-- What a path leads to. A path with a zero byte is no path, and is not looked up at all. -/
def lookup (t : FileTree) (path : Bytes) : Except Cause Entry :=
  if 0 ∈ path then .error (.described "file name contained an unexpected NUL byte")
  else if path = [] then .error (.system .noEntry)
  else if longestPath < path.length then .error (.system .nameTooLong)
  else (t.follow mostLinks (start t.working path) (names path)).mapError .system

/-- The device node that a path leads to; none if what is there is no device. -/
def device? (t : FileTree) (path : Bytes) : Except Cause (Option Node) :=
  (t.lookup path).map fun entry =>
    match entry with
    | .device node => some node
    | _ => none

end FileTree

end InputGauge
