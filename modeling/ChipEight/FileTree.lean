import ChipEight.Basic

namespace ChipEight

/-!
# File trees

The files that a host can open: folders from the root `/` on, and a working folder, where
a path starts that does not start with a slash.  A path is looked up name by name.

* `ReadFault` — why the bytes at a path cannot be had;
* `FileTree.Node` — a file with its bytes, or a folder with named entries;
* `FileTree` — the root, the working folder, and what else the system has against a path;
* `FileTree.Fault` — why a path cannot be used in a tree;
* `FileTree.Place` — where a path has led so far, with the way back to the root;
* `FileTree.read` — the bytes of the file at a path;
* `FileTree.writeFile`, `FileTree.makeFolders` — a tree with a file or a folder
  added;
* `FileTree.ofEntries` — the tree of a list of paths from a working folder.
-/

/-- Why the bytes at a path cannot be had. -/
inductive ReadFault
  /-- The text is no path: it holds the character NUL. -/
  | noPath
  /-- The system refuses the path, with a text that says why. -/
  | refused (reason : String)
deriving DecidableEq, Repr

/-- A file with its bytes, or a folder with its entries. -/
inductive FileTree.Node
  | file (content : Array Byte)
  | folder (entries : List (String × FileTree.Node))

/-- The files that a host can open. -/
structure FileTree where
  /-- The folder `/`. -/
  top : FileTree.Node
  /-- The working folder, by the names that lead to it from the root. -/
  working : List String := []
  /-- What the system has against a path that is not in the tree: rights that are missing,
      links that lead in circles, a device that fails. -/
  refusal? : String → Option String := fun _ => none

namespace FileTree

/-- Why a path cannot be used in a tree. -/
inductive Fault
  /-- The text is no path: it holds the character NUL. -/
  | noPath
  | missing
  | isFolder
  | notFolder
  | taken
  | nameTooLong
deriving DecidableEq, Repr

/-- The text of a fault. -/
def Fault.message : Fault → String
  | noPath => "embedded null byte"
  | missing => "No such file or directory"
  | isFolder => "Is a directory"
  | notFolder => "Not a directory"
  | taken => "File exists"
  | nameTooLong => "File name too long"

end FileTree

/-- The text of a fault. -/
def ReadFault.message : ReadFault → String
  | noPath => FileTree.Fault.noPath.message
  | refused reason => reason

namespace FileTree

open Node

/-- The entries of a folder with one of them put in the place of what had its name. -/
def put (entries : List (String × Node)) (name : String) (n : Node) : List (String × Node) :=
  (name, n) :: entries.filter (·.1 ≠ name)

/-! ### Places -/

/-- A folder that a path has gone through: its entries, and the name of the one that
    the path took. -/
structure Crumb where
  entries : List (String × Node)
  name : String

/-- Where a path has led so far: something in the tree, and the folders it lies in, the
    innermost first. -/
structure Place where
  here : Node
  above : List Crumb

namespace Place

/-- The folder that a place lies in.  The root lies in itself. -/
def parent : Place → Place
  | ⟨here, c :: above⟩ => ⟨folder (put c.entries c.name here), above⟩
  | ⟨here, []⟩ => ⟨here, []⟩

/-- The root of the tree, found by going back the whole way from something in it. -/
def root (here : Node) : List Crumb → Node
  | [] => here
  | c :: above => root (folder (put c.entries c.name here)) above

end Place

/-- The longest name of an entry, in bytes. -/
def nameLimit : Nat := 255

/-- The longest path, in bytes. -/
def pathLimit : Nat := 4095

/-- Whether a name is that of an entry, and not a way to stay or to go back. -/
def isEntryName (name : String) : Bool := name != "" && name != "." && name != ".."

/-- Follow one name of a path; `missing` gives what is at a name that a folder has no
    entry of.  An empty name, as between two slashes or after the last one, stays where
    it is but takes a folder. -/
def Place.follow (missing : Except Fault Node) (p : Place) (name : String) :
    Except Fault Place :=
  match p.here with
  | file _ => .error .notFolder
  | folder entries =>
    if name = ".." then .ok p.parent
    else if ¬ isEntryName name then .ok p
    else if nameLimit < name.utf8ByteSize then .error .nameTooLong
    else
      match entries.lookup name with
      | some there => .ok ⟨there, ⟨entries, name⟩ :: p.above⟩
      | none => missing.map fun made => ⟨made, ⟨entries, name⟩ :: p.above⟩

/-- The names of a path, after the checks of the path as a whole. -/
def names (path : String) : Except Fault (List String) :=
  if path.toList.contains '\x00' then .error .noPath
  else if path = "" then .error .missing
  else if pathLimit < path.utf8ByteSize then .error .nameTooLong
  else .ok ((path.toList.splitOn '/').map String.ofList)

/-- The folder where a path starts. -/
def start (tree : FileTree) (path : String) : Except Fault Place :=
  let root : Place := ⟨tree.top, []⟩
  if path.startsWith "/" then .ok root
  else tree.working.foldlM (Place.follow (.error .missing)) root

/-! ### Reading and writing -/

/-- What is at a path. -/
def find (tree : FileTree) (path : String) : Except Fault Node := do
  let names ← names path
  let place ← names.foldlM (Place.follow (.error .missing)) (← tree.start path)
  return place.here

/-- The bytes of the file at a path. -/
def read (tree : FileTree) (path : String) : Except ReadFault (Array Byte) :=
  match tree.find path, tree.refusal? path with
  | .error .noPath, _ => .error .noPath
  | _, some reason => .error (.refused reason)
  | .error fault, none => .error (.refused fault.message)
  | .ok (file content), none => .ok content
  | .ok (folder _), none => .error (.refused Fault.isFolder.message)

/-- The tree with a file at a path, whose folders must be there.  A slash at the end of a
    path says that it is a folder's. -/
def writeFile (tree : FileTree) (path : String) (content : Array Byte) : Except Fault FileTree := do
  let names := (← names path).reverse
  let ends := names.dropWhile (· = "")
  let name := ends.headD ""
  let place ← ends.tail.reverse.foldlM (Place.follow (.error .missing)) (← tree.start path)
  match place.here with
  | file _ => .error .notFolder
  | folder entries =>
    if names.head? = some "" ∨ ¬ isEntryName name then .error .isFolder
    else if nameLimit < name.utf8ByteSize then .error .nameTooLong
    else
      match entries.lookup name with
      | some (folder _) => .error .isFolder
      | _ =>
        let written := folder (put entries name (file content))
        .ok { tree with top := Place.root written place.above }

/-- The tree with the folder at a path and every folder on the way to it. -/
def makeFolders (tree : FileTree) (path : String) : Except Fault FileTree := do
  let ends := (← names path).reverse.dropWhile (· = "")
  let place ← ends.reverse.foldlM (Place.follow (.ok (folder []))) (← tree.start path)
  match place.here with
  | file _ => .error .taken
  | folder entries => .ok { tree with top := Place.root (folder entries) place.above }

/-- A tree without files, whose working folder is not the root. -/
def empty : FileTree where
  top := folder [("tmp", folder [("work", folder [])])]
  working := ["tmp", "work"]

/-- The tree of a list of paths, in their order: those with bytes are files, the others
    folders.  A fault comes with the path that has it. -/
def ofEntries (paths : List (String × Option (Array Byte))) : Except (String × Fault) FileTree :=
  paths.foldlM
    (fun tree (path, content) =>
      let made := match content with
        | some content => tree.writeFile path content
        | none => tree.makeFolders path
      made.mapError fun fault => (path, fault))
    empty

end FileTree

end ChipEight
