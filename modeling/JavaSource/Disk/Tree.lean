import JavaSource.Text.Utf8

/-!
# Directory trees

A finite tree of directories and files without links. A node is addressed by the names that lead
to it from the top directory.
-/

namespace JavaSource

inductive FileTree
  | file (content : List UInt8)
  | dir (entries : List (Text × FileTree))

/-- The entries of a directory; those of the top directory are a whole disk. -/
abbrev Disk := List (Text × FileTree)

/-- The names that lead from the top directory to a node. -/
abbrev Address := List Text

/-- The greatest width of a name that an entry of a directory can have. -/
def maxNameWidth : Nat := 255

/-- A name that an entry of a directory can have: not empty, without slash and zero character, no
relative name, and not too wide. -/
def isFileName (name : Text) : Bool :=
  !name.isEmpty && !name.contains '/' && !name.contains '\x00' && name != ['.'] &&
    name != ['.', '.'] && Text.width name ≤ maxNameWidth

namespace Disk

/-! ### One directory -/

/-- A directory with a node under a name, in place of what stands there. -/
def setEntry (name : Text) (node : FileTree) : Disk → Disk
  | [] => [(name, node)]
  | e :: es => if e.1 = name then (name, node) :: es else e :: setEntry name node es

def addDir (name : Text) (entries : Disk) : Option Disk :=
  if isFileName name && (entries.lookup name).isNone then some (setEntry name (.dir []) entries)
  else none

/-- Puts a file under a name, where no directory may stand. -/
def putFile (name : Text) (content : List UInt8) (entries : Disk) : Option Disk :=
  match entries.lookup name with
  | some (.dir _) => none
  | _ => if isFileName name then some (setEntry name (.file content) entries) else none

def removeFile (name : Text) (entries : Disk) : Option Disk :=
  match entries.lookup name with
  | some (.file _) => some (entries.filter fun e => e.1 ≠ name)
  | _ => none

/-! ### The whole tree -/

def find? : Address → Disk → Option FileTree
  | [], entries => some (.dir entries)
  | name :: path, entries =>
    match path, entries.lookup name with
    | [], node => node
    | _ :: _, some (.dir sub) => find? path sub
    | _ :: _, _ => none

def read? (path : Address) (disk : Disk) : Option (List UInt8) :=
  match find? path disk with
  | some (.file content) => some content
  | _ => none

/-- Changes the directory at an address; fails where no directory stands or the change fails. -/
def update (change : Disk → Option Disk) : Address → Disk → Option Disk
  | [], entries => change entries
  | name :: path, entries =>
    match entries.lookup name with
    | some (.dir sub) => (update change path sub).map fun s => setEntry name (.dir s) entries
    | _ => none

mutual

/-- The files of a node at an address, with their addresses. -/
def filesOfNode (path : Address) : FileTree → List (Address × List UInt8)
  | .file content => [(path, content)]
  | .dir entries => filesBelow path entries

def filesBelow (path : Address) : List (Text × FileTree) → List (Address × List UInt8)
  | [] => []
  | (name, node) :: rest => filesOfNode (path ++ [name]) node ++ filesBelow path rest

end

def files (disk : Disk) : List (Address × List UInt8) := filesBelow [] disk

end Disk

end JavaSource
