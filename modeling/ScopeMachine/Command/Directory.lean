import ScopeMachine.Command.Plan

/-!
# Directories in memory

A working directory of plain files, on which plans can be carried out. Paths are taken from that
directory. It lies right under a directory below the root; of what is around it, only the directories
under the root and the null device are there. A file made outside is out of sight.
-/

namespace ScopeMachine.Command

structure Directory where
  files : List (String × List UInt8)
  deriving DecidableEq, Repr, Inhabited

namespace Directory

def topLevel : List String :=
  ["bin", "boot", "dev", "etc", "home", "lib", "lib64", "media", "mnt", "opt", "proc", "root", "run",
    "sbin", "srv", "sys", "tmp", "usr", "var"]

/-- What a path leads to. -/
inductive Target where
  /-- The directory itself. -/
  | here
  /-- A directory outside, by the names on the way up from it to the root. -/
  | outside (names : List String)
  /-- The device that is always empty and takes everything. -/
  | nullDevice
  | file (name : String) (content : List UInt8)
  /-- No file, but one could be made under that name. -/
  | vacant (name : String)
  /-- No file, but one could be made there, outside the directory. -/
  | vacantOutside
  | fault (fault : FileFault)
  deriving DecidableEq, Repr

def Target.entryOutside (names : List String) (name : String) : Target :=
  if names = [] ∧ name ∈ topLevel then outside [name]
  else if names = ["dev"] ∧ name = "null" then nullDevice
  else vacantOutside

/-- Goes on from a target by one component of a path. The empty component stands for the slash at the
end of a path and, like a point, asks for a directory. -/
def Target.follow (d : Directory) (component : String) : Target → Target
  | here =>
    if component = "" ∨ component = "." then here
    -- where exactly the directory lies does not matter, as long as it is not under the root
    else if component = ".." then outside ["tmp"]
    else if 255 < component.utf8ByteSize then fault .nameTooLong
    else match d.files.lookup component with
      | some content => file component content
      | none => vacant component
  | outside names =>
    if component = "" ∨ component = "." then outside names
    -- the root is the directory around itself
    else if component = ".." then outside names.tail
    else if 255 < component.utf8ByteSize then fault .nameTooLong
    else entryOutside names component
  | file _ _ | nullDevice => fault .notDirectory
  | vacant _ | vacantOutside => fault .notFound
  | fault f => fault f

def pathFault? (path : String) : Option FileFault :=
  if path.toList.contains '\x00' then some .nulInName
  else if path = "" then some .notFound
  else if 4095 < path.utf8ByteSize then some .nameTooLong
  else none

def walk (d : Directory) (path : String) (components : List String) : Target :=
  components.foldl (fun t component => t.follow d component)
    (if path.startsWith "/" then .outside [] else .here)

def target (d : Directory) (path : String) : Target :=
  match pathFault? path with
  | some f => .fault f
  | none => d.walk path (path.splitOn "/")

/-- What the path leads to where a file may be made. If it ends in a slash, its last component is
taken for a directory without a look. -/
def creationTarget (d : Directory) (path : String) : Target :=
  match pathFault? path with
  | some f => .fault f
  | none =>
    let components := path.splitOn "/"
    if path.endsWith "/" then
      let around := (components.reverse.dropWhile (· = "")).tail.reverse
      d.walk path (around ++ ["."])
    else d.walk path components

def read (d : Directory) (path : String) : Except FileFault (List UInt8) :=
  match d.target path with
  | .file _ content => .ok content
  | .nullDevice => .ok []
  | .here | .outside _ => .error .isDirectory
  | .vacant _ | .vacantOutside => .error .notFound
  | .fault f => .error f

def write (d : Directory) (path : String) (content : List UInt8) :
    Except FileFault Unit × Directory :=
  match d.creationTarget path with
  | .file name _ => (.ok (), ⟨d.files.map fun f => if f.1 = name then (name, content) else f⟩)
  | .vacant name => (.ok (), ⟨d.files ++ [(name, content)]⟩)
  | .nullDevice | .vacantOutside => (.ok (), d)
  | .here | .outside _ => (.error .isDirectory, d)
  | .fault f => (.error f, d)

def carryOut (d : Directory) : Plan α → α × Directory
  | .done result => (result, d)
  | .read path next => (next (d.read path), d)
  | .write path content next =>
    let (r, d) := d.write path content
    (next r, d)

end Directory

end ScopeMachine.Command
