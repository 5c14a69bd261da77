/-!
# Storage

The files that a run of the program can see, as a value. Folders and files hang in one
tree. A path is followed name by name from the root, or from the home folder if it does
not start with a slash.
-/

namespace OperandStack

/-- What stands at a place in the tree. -/
inductive StorageNode where
  | folder
  | file (content : ByteArray)
  /-- A file that is always empty and drops what is written to it. -/
  | sink

/-- Why a path cannot be used. -/
inductive StorageFault where
  | missing
  | notFolder
  | isFolder
  | nameTooLong
  | badName
  deriving DecidableEq, Repr

/-- The words for a fault. -/
def StorageFault.words : StorageFault → String
  | missing => "no such file or directory"
  | notFolder => "not a directory"
  | isFolder => "is a directory"
  | nameTooLong => "file name too long"
  | badName => "invalid argument"

/-- The tree of all files. A place is given by the names that lead to it from the root. -/
structure Storage where
  nodes : List (List String × StorageNode)
  /-- The place from which paths without a leading slash are followed. -/
  home : List String

namespace Storage

/-- The longest name, in bytes. -/
def maxName : Nat := 255

/-- The bound on the bytes of a path. -/
def maxPath : Nat := 4096

/-- What stands at a place. The root is a folder. -/
def node? (s : Storage) (place : List String) : Option StorageNode :=
  if place.isEmpty then some .folder
  else (s.nodes.find? fun (p, _) => p = place).map Prod.snd

/-- Follows names from a place. Only a folder has anything below it. -/
def follow (s : Storage) (place : List String) : List String → Except StorageFault (List String)
  | [] => .ok place
  | name :: rest =>
    match s.node? place with
    | some .folder =>
      if name = "" ∨ name = "." then s.follow place rest
      else if name = ".." then s.follow place.dropLast rest
      else if maxName < name.utf8ByteSize then .error .nameTooLong
      else if (s.node? (place ++ [name])).isNone then .error .missing
      else s.follow (place ++ [name]) rest
    | some _ => .error .notFolder
    | none => .error .missing

/-- The place where a path starts, and the names of the path. -/
def split (s : Storage) (path : String) : Except StorageFault (List String × List String) :=
  if path.toList.contains (Char.ofNat 0) then .error .badName
  else if path = "" then .error .missing
  else if maxPath ≤ path.utf8ByteSize then .error .nameTooLong
  else .ok (if path.startsWith "/" then [] else s.home, path.splitOn "/")

/-- The content of the file at a path. -/
def read (s : Storage) (path : String) : Except String ByteArray :=
  let found : Except StorageFault (Option StorageNode) := do
    let (place, names) ← s.split path
    return s.node? (← s.follow place names)
  let failed (verb : String) (f : StorageFault) : Except String ByteArray :=
    .error (verb ++ " " ++ path ++ ": " ++ f.words)
  match found with
  | .ok (some (.file content)) => .ok content
  | .ok (some .sink) => .ok .empty
  | .ok (some .folder) => failed "read" .isFolder
  | .ok none => failed "open" .missing
  | .error f => failed "open" f

/-- The place of a file that is to be written at a path. The file need not be there, but its folder
must, and a path that ends with a slash means a folder. -/
def placeFor (s : Storage) (path : String) : Except StorageFault (List String) := do
  let (start, names) ← s.split path
  let named := (names.reverse.dropWhile (· = "")).reverse
  let last := named.getLast?.getD "."
  let folder ← s.follow start named.dropLast
  match s.node? folder with
  | some .folder =>
    if last = "." ∨ last = ".." ∨ names.getLast? = some "" then .error .isFolder
    else if maxName < last.utf8ByteSize then .error .nameTooLong
    else .ok (folder ++ [last])
  | some _ => .error .notFolder
  | none => .error .missing

/-- Puts a node at a place. -/
def put (s : Storage) (place : List String) (n : StorageNode) : Storage :=
  { s with nodes := (place, n) :: s.nodes.filter fun (p, _) => p ≠ place }

/-- Writes a file, which takes the place of an earlier one. -/
def write (s : Storage) (path : String) (content : ByteArray) : Except String Storage :=
  let written : Except StorageFault Storage := do
    let place ← s.placeFor path
    match s.node? place with
    | some .folder => .error .isFolder
    | some .sink => return s
    | _ => return s.put place (.file content)
  match written with
  | .ok s => .ok s
  | .error f => .error ("open " ++ path ++ ": " ++ f.words)

/-- The folders that are there from the start. -/
def standardFolders : List String :=
  ["bin", "boot", "dev", "etc", "home", "lib", "media", "mnt", "opt", "proc", "root", "run", "sbin",
    "srv", "sys", "tmp", "usr", "var"]

/-- The storage with nothing of one's own in it, and an empty home folder. -/
def empty : Storage where
  nodes := (["tmp", "home"], .folder) :: (["dev", "null"], .sink) ::
    standardFolders.map fun name => ([name], .folder)
  home := ["tmp", "home"]

/-- Puts a file below the home folder, with the folders that its name goes through. -/
def putFile (s : Storage) (name : String) (content : ByteArray) : Storage :=
  let names := name.splitOn "/"
  let folders := (List.range names.length).drop 1
  let s := folders.foldl (fun s k => s.put (s.home ++ names.take k) .folder) s
  s.put (s.home ++ names) (.file content)

/-- The storage with files of given names below the home folder. -/
def ofFiles (files : List (String × ByteArray)) : Storage :=
  files.foldl (fun s (name, content) => s.putFile name content) empty

end Storage

end OperandStack
