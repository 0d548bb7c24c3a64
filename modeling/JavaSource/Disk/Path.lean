import JavaSource.Disk.Tree

/-!
# Paths

A path is a text of names with slashes between them that is followed from the top directory, name
by name. A single dot and an empty name stay in the directory, two dots leave it. A path that
starts with a slash or leaves the top directory leads to a directory outside of the disk, in which
nothing is found and nothing can be written.
-/

namespace JavaSource.Disk

/-- Why a path cannot be followed, or no directory be made at its end. -/
inductive Obstacle
  /-- A directory does not have the name that is looked up in it. -/
  | missing
  /-- Something else stands in the way, or the path or one of its names is not possible. -/
  | blocked

/-- A directory that a path has led to: one of the disk, as the names and entries of the
directories from it up to the top directory, or one outside of the disk. -/
inductive Location
  | inside (trail : List (Text × Disk))
  | outside

/-- The address of the directory at the end of a trail. -/
def addressOf (trail : List (Text × Disk)) : Address := (trail.map Prod.fst).reverse

/-- The entries of the directory at the end of a trail. -/
def entriesAt (disk : Disk) : List (Text × Disk) → Disk
  | [] => disk
  | (_, entries) :: _ => entries

/-! ### Following a path -/

/-- A name that stays in the directory where it is looked up. -/
def isIdle (name : Text) : Bool := name.isEmpty || name == ['.']

/-- A name that no entry can have because it leads to a directory wherever it is looked up. -/
def isRelative (name : Text) : Bool := isIdle name || name == ['.', '.']

def enter (disk : Disk) (here : Location) (name : Text) : Except Obstacle Location :=
  if isIdle name then .ok here
  else
    match here with
    | .outside => if isRelative name then .ok .outside else .error .missing
    | .inside trail =>
      if isRelative name then .ok (if trail.isEmpty then .outside else .inside trail.tail)
      else if Text.width name > maxNameWidth then .error .blocked
      else
        match (disk.entriesAt trail).lookup name with
        | some (.dir entries) => .ok (.inside ((name, entries) :: trail))
        | some (.file _) => .error .blocked
        | none => .error .missing

def maxPathWidth : Nat := 4095

/-- The directory in which the last name of a path is looked up, and that name. -/
def locate (disk : Disk) (path : Text) : Except Obstacle (Location × Text) :=
  if path.isEmpty then .error .missing
  else if path.contains '\x00' || Text.width path > maxPathWidth then .error .blocked
  else
    let names := Text.split '/' path
    let start := if path.head? = some '/' then .outside else .inside []
    (names.dropLast.foldlM (enter disk) start).map fun here => (here, names.getLastD [])

def isDirPath (disk : Disk) (path : Text) : Bool :=
  match (disk.locate path).bind fun p => disk.enter p.1 p.2 with
  | .ok _ => true
  | .error _ => false

def pathExists (disk : Disk) (path : Text) : Bool :=
  match disk.locate path with
  | .ok (here, name) =>
    isRelative name ||
      match here with
      | .inside trail => ((disk.entriesAt trail).lookup name).isSome
      | .outside => false
  | .error _ => false

def readPath? (disk : Disk) (path : Text) : Option (List UInt8) :=
  match disk.locate path with
  | .ok (.inside trail, name) => read? [name] (disk.entriesAt trail)
  | _ => none

/-- Changes the directory in which the last name of a path is looked up. -/
def updatePath? (disk : Disk) (change : Text → Disk → Option Disk) (path : Text) : Option Disk :=
  match disk.locate path with
  | .ok (.inside trail, name) => update (change name) (addressOf trail) disk
  | _ => none

def removePath? (disk : Disk) (path : Text) : Option Disk := disk.updatePath? removeFile path

/-! ### Writing -/

/-- Makes a directory where the last name of a path is looked up. -/
def makeDir (disk : Disk) (path : Text) : Except Obstacle Disk :=
  match disk.locate path, disk.updatePath? addDir path with
  | .error obstacle, _ => .error obstacle
  | .ok _, some made => .ok made
  | .ok _, none => .error .blocked

/-- The paths that end at each name of a path but idle ones, from its end to its start; the names
are given from the last one on. -/
def pathsUpTo : (reversed : List Text) → List Text
  | [] => []
  | name :: rest =>
    if isIdle name then pathsUpTo rest
    else Text.join ['/'] (name :: rest).reverse :: pathsUpTo rest

/-- The paths of the directories that a path passes, the last one first. -/
def parents (path : Text) : List Text := (pathsUpTo (Text.split '/' path).reverse).tail

/-- Makes a directory, whose path comes first, and for it those above it that are missing. The
directories that were made stay when another one cannot be made. -/
def makeDirs : List Text → Disk → Bool × Disk
  | [], disk => (true, disk)
  | path :: above, disk =>
    match disk.makeDir path with
    | .ok disk => (true, disk)
    | .error .missing =>
      match makeDirs above disk with
      | (false, disk) => (false, disk)
      | (true, disk) =>
        match disk.makeDir path with
        | .ok disk => (true, disk)
        | .error _ => (disk.isDirPath path, disk)
    | .error _ => (disk.isDirPath path, disk)

/-- Writes a file and makes the directories that its path passes, which stay when the file cannot
be written. -/
def writePath (path : Text) (content : List UInt8) (disk : Disk) : Bool × Disk :=
  match makeDirs (parents path) disk with
  | (false, disk) => (false, disk)
  | (true, disk) =>
    match disk.updatePath? (fun name => putFile name content) path with
    | some disk => (true, disk)
    | none => (false, disk)

/-! ### Listings -/

def trimPath (path : Text) : Text :=
  let names := (Text.split '/' path).dropWhile isIdle
  Text.join ['/'] (names.reverse.dropWhile isIdle).reverse

def pathOfAddress (address : Address) : Text := Text.join ['/'] address

def listing (disk : Disk) : List (Text × List UInt8) :=
  (disk.files.map fun f => (pathOfAddress f.1, f.2)).mergeSort fun a b => Text.notAfter a.1 b.1

/-! ### Source files -/

/-- The extension of a file name: what stands behind its last dot, where something stands before
that dot. -/
def extension? (name : Text) : Option Text :=
  (Text.splitLast? '.' name).bind fun p => if p.1.isEmpty then none else some p.2

def isSource (address : Address) : Bool :=
  (address.getLast?.bind extension?) = some "java".toList

mutual

def countDirs : FileTree → Nat
  | .file _ => 0
  | .dir entries => countDirsBelow entries + 1

def countDirsBelow : List (Text × FileTree) → Nat
  | [] => 0
  | (_, node) :: rest => countDirs node + countDirsBelow rest

end

/-- A search for source files: the directories that are still to be read, the next one first, each
with the entries that it has, and the source files that were found in those read before. -/
structure Search where
  pending : List (Address × Disk)
  found : List Address

namespace Search

def start (disk : Disk) : Search := ⟨[([], disk)], []⟩

/-- Takes note of one entry of a directory: a directory waits until it is read, a source file is
found. -/
def note (here : Address) (search : Search) : Text × FileTree → Search
  | (name, .dir entries) =>
    { search with pending := (here ++ [name], entries) :: search.pending }
  | (name, .file _) =>
    if isSource (here ++ [name]) then { search with found := search.found ++ [here ++ [name]] }
    else search

/-- Reads the next directory. -/
def step (search : Search) : Search :=
  match search.pending with
  | [] => search
  | (here, entries) :: rest => entries.foldl (note here) { search with pending := rest }

/-- The number of directories that have not been read, those not yet seen among them. -/
def unread (search : Search) : Nat :=
  search.pending.foldr (fun d total => countDirsBelow d.2 + 1 + total) 0

theorem unread_note (here : Address) (search : Search) (entry : Text × FileTree) :
    (search.note here entry).unread = search.unread + countDirs entry.2 := by
  obtain ⟨name, node⟩ := entry
  cases node with
  | file content =>
    simp only [note, countDirs, Nat.add_zero]
    split
    · rfl
    · rfl
  | dir entries =>
    simp only [note, unread, countDirs, List.foldr_cons]
    omega

theorem unread_foldl_note (here : Address) (search : Search) (entries : Disk) :
    (entries.foldl (note here) search).unread = search.unread + countDirsBelow entries := by
  induction entries generalizing search with
  | nil => rfl
  | cons entry entries ih =>
    rw [List.foldl_cons, ih, unread_note, countDirsBelow]
    omega

/-- A step reads one directory, whatever stands in it. -/
theorem unread_step {search : Search} (h : search.pending ≠ []) :
    search.step.unread + 1 = search.unread := by
  obtain ⟨pending, found⟩ := search
  cases pending with
  | nil => exact absurd rfl h
  | cons d rest =>
    simp only [step, unread_foldl_note]
    simp only [unread, List.foldr_cons]
    omega

/-- Reads directories until none is left. -/
def run (search : Search) : List Address :=
  if search.pending = [] then search.found else run search.step
termination_by search.unread
decreasing_by
  have hstep := unread_step ‹_›
  omega

end Search

/-- Whether an address comes strictly before another, name by name. -/
def addressBefore : Address → Address → Bool
  | _, [] => false
  | [], _ :: _ => true
  | a :: s, b :: t => Text.before a b || (a == b && addressBefore s t)

/-- The addresses of all Java source files, sorted name by name. -/
def sources (disk : Disk) : List Address :=
  (Search.start disk).run.mergeSort fun a b => !addressBefore b a

end JavaSource.Disk
