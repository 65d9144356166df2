import Multidrop.Transport.Fault

/-!
# Files by Their Paths

A tree of files, and how a path leads through it. A path is walked name by
name: a point stays where it is, two points go up, and everything else is
looked for in a directory. The root is its own parent.

## Main definitions

* `Node`: What may stand at a path.
* `FileTree`: The tree, with a directory to begin at.
* `FileTree.find`: What stands at a path.
-/

namespace Multidrop

namespace Command

/-- What may stand at a path. -/
inductive Node where
  | file (content : List UInt8)
  | directory
  | socket
  deriving DecidableEq

/-- A tree of files. What stands in it is found by the names on the way, and
    what is on the way is a directory. -/
structure FileTree where
  entries : List (List String × Node) := []
  /-- The directory in which a path begins that does not begin at the
      root. -/
  start : List String := []

namespace FileTree

/-- There is nothing by that name. -/
def notFound : Transport.Fault := .ofNumber 2

/-- A file where a directory was expected. -/
def notDirectory : Transport.Fault := .ofNumber 20

/-- A name or a path has too many bytes. -/
def nameTooLong : Transport.Fault := .ofNumber 36

/-- A path ends where it has a zero, so none can be in it. -/
def zeroInside : Transport.Fault :=
  { kind := .invalidInput, text := some "file name contained an unexpected NUL byte" }

/-- The most bytes in a name. -/
def maxName : Nat := 255

/-- The most bytes in a path. -/
def maxPath : Nat := 4095

/-- The names of a path. -/
def names (path : String) : List String :=
  path.splitOn "/"

/-- Put something at a path from the root. -/
def add (path : String) (node : Node) (t : FileTree) : FileTree :=
  { t with entries := ((names path).filter (· ≠ ""), node) :: t.entries }

/-- What stands at the end of some names. -/
def node? (way : List String) (t : FileTree) : Option Node :=
  match t.entries.lookup way with
  | some node => some node
  | none =>
    if way.isPrefixOf t.start || t.entries.any (fun e => way.isPrefixOf e.1) then
      some .directory
    else none

/-- Walk on by some names, from what stands at the end of the names so
    far. -/
def walk (t : FileTree) (way : List String) (here : Node) :
    List String → Except Transport.Fault Node
  | [] => .ok here
  | name :: rest =>
    if here ≠ .directory then .error notDirectory
    else if name = "" ∨ name = "." then t.walk way here rest
    else if name = ".." then t.walk way.dropLast here rest
    else if maxName < name.utf8ByteSize then .error nameTooLong
    else
      match t.node? (way ++ [name]) with
      | none => .error notFound
      | some node => t.walk (way ++ [name]) node rest

/-- What stands at a path. -/
def find (path : String) (t : FileTree) : Except Transport.Fault Node :=
  if path.contains '\x00' then .error zeroInside
  else if path.isEmpty then .error notFound
  else if maxPath < path.utf8ByteSize then .error nameTooLong
  else t.walk (if path.startsWith "/" then [] else t.start) .directory (names path)

/-- The directories of any system. -/
def usualDirectories : List String :=
  ["/bin", "/boot", "/dev", "/etc", "/home", "/lib", "/lib64", "/media", "/mnt", "/opt",
    "/proc", "/root", "/run", "/sbin", "/srv", "/sys", "/tmp", "/usr/bin", "/usr/lib",
    "/usr/local", "/usr/share", "/var/lib", "/var/log", "/var/tmp"]

/-- The files of any system. Nobody asks for what is in them. -/
def usualFiles : List String :=
  ["/dev/null", "/etc/group", "/etc/hosts", "/etc/passwd"]

/-- What any system has, with a directory to begin at that is empty. -/
def usual : FileTree where
  entries :=
    usualDirectories.map (fun path => ((names path).filter (· ≠ ""), .directory)) ++
      usualFiles.map fun path => ((names path).filter (· ≠ ""), .file [])
  start := ["work"]

end FileTree

end Command

end Multidrop
