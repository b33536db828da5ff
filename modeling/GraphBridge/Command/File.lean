import GraphBridge.Table

/-!
# Files

A command reads the files it names through a look-up from paths to texts. A folder that holds
nothing but files gives such a look-up: a path is walked step by step, and of what lies around the
folder only the other folders are known.
-/

namespace GraphBridge.Command

/-- Why a file could not be read. -/
inductive FileFault where
  | missing
  /-- The path leads to a folder. -/
  | isFolder
  /-- The path goes through a file as if it were a folder. -/
  | notAFolder
  /-- The path, or a name on it, has too many bytes. -/
  | nameTooLong
  /-- The file does not hold text. -/
  | notText
  /-- Another fault, as the system words it. -/
  | other (text : String)
  deriving DecidableEq, Repr

namespace FileFault

/-- The wording of a fault. -/
def message : FileFault → String
  | .missing => "No such file or directory (os error 2)"
  | .isFolder => "Is a directory (os error 21)"
  | .notAFolder => "Not a directory (os error 20)"
  | .nameTooLong => "File name too long (os error 36)"
  | .notText => "stream did not contain valid UTF-8"
  | .other text => text

end FileFault

/-- The text of the file at a path. -/
abbrev ReadFile := String → Except FileFault String

/-- A folder: the texts of its files by name. -/
abbrev Folder := Table String

/-- The greatest number of bytes in a name. -/
def longestName : Nat := 255

/-- The greatest number of bytes in a path. -/
def longestPath : Nat := 4095

/-- Where a walk along a path stands. -/
inductive Place where
  /-- In the folder that the walk starts in. -/
  | home
  /-- In a folder around it. -/
  | around
  /-- In the folder that holds all others. -/
  | root
  /-- In a folder of the system, right below the root. -/
  | system (name : String)
  /-- At a file. -/
  | file (text : String)
  deriving DecidableEq, Repr

/-- The folders that every system has. -/
def systemFolders : List String :=
  ["bin", "boot", "dev", "etc", "home", "lib", "media", "mnt", "opt", "proc", "root", "run", "sbin",
    "srv", "sys", "tmp", "usr", "var"]

namespace Place

/-- The folder that holds the one where the walk stands; the root holds itself. -/
def parent : Place → Place
  | .root | .system _ => .root
  | _ => .around

/-- What a name leads to. Of the devices only the empty one is known. -/
def child? (folder : Folder) (name : String) : Place → Option Place
  | .home => (folder.get? name).map .file
  | .root => if systemFolders.contains name then some (.system name) else none
  | .system "dev" => if name == "null" then some (.file "") else none
  | _ => none

/-- One step along a path. There is no way on from a file, not even to itself. -/
def step (folder : Folder) (place : Place) (name : String) : Except FileFault Place :=
  match place with
  | .file _ => .error .notAFolder
  | _ =>
      if name == "" || name == "." then .ok place
      else if name == ".." then .ok place.parent
      else if longestName < name.utf8ByteSize then .error .nameTooLong
      else
        match place.child? folder name with
        | some next => .ok next
        | none => .error .missing

end Place

namespace Folder

/-- The place that a path inside a folder leads to. -/
def walk (folder : Folder) (path : String) : Except FileFault Place :=
  let start := if path.startsWith "/" then Place.root else .home
  (path.splitOn "/").foldlM (Place.step folder) start

/-- The text of the file at a path inside a folder. -/
def read (folder : Folder) : ReadFile := fun path =>
  if path == "" then .error .missing
  else if longestPath < path.utf8ByteSize then .error .nameTooLong
  else
    match folder.walk path with
    | .ok (.file text) => .ok text
    | .ok _ => .error .isFolder
    | .error fault => .error fault

end Folder

end GraphBridge.Command
