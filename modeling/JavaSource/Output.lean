import JavaSource.CompilationUnit
import JavaSource.Text.Utf8

/-!
# Output files

The files of a run are rendered first and then written to a storage in their order. A file that
already holds exactly its bytes is left alone; the report says which files were written and which
were not touched. The first file that cannot be written ends the run.
-/

namespace JavaSource

/-- A file to be written, at a path below the output directory. -/
structure OutputFile where
  path : Text
  content : Text

inductive WriteOutcome
  | written
  | unchanged
deriving DecidableEq

/-- The paths of the files that were written and of those that already held their bytes. -/
structure WriteReport where
  written : List Text := []
  unchanged : List Text := []
deriving DecidableEq

namespace WriteReport

def add (r : WriteReport) (path : Text) : WriteOutcome → WriteReport
  | .written => { r with written := r.written ++ [path] }
  | .unchanged => { r with unchanged := r.unchanged ++ [path] }

def total (r : WriteReport) : Nat := r.written.length + r.unchanged.length

end WriteReport

def CompilationUnit.outputFile (indent : Indent) (u : CompilationUnit) : OutputFile :=
  ⟨u.path, u.render indent⟩

/-! ### Storages -/

/-- A place where files are kept, used by reading and writing in a monad. -/
structure Storage (m : Type → Type) where
  /-- The bytes of the file at a path, if there is one. -/
  read? : Text → m (Option (List UInt8))
  /-- Writes the bytes of a file at a path, and tells whether that succeeded. -/
  write : Text → List UInt8 → m Bool

namespace Storage

variable {m : Type → Type} [Monad m]

/-- Writes a text to a path unless the file there already holds its bytes; there is no outcome
where it cannot be written. -/
def save? (storage : Storage m) (path content : Text) : m (Option WriteOutcome) := do
  if (← storage.read? path) = some (Text.toUtf8 content) then return some .unchanged
  return if ← storage.write path (Text.toUtf8 content) then some .written else none

/-- Writes files below a directory, and adds them to a report; there is no report where a file
cannot be written, and then no later one is touched. -/
def saveAll? (storage : Storage m) (base : Text) :
    List OutputFile → WriteReport → m (Option WriteReport)
  | [], report => return some report
  | f :: fs, report => do
    match ← storage.save? (appendPathPart base f.path) f.content with
    | some outcome => saveAll? storage base fs (report.add f.path outcome)
    | none => return none

end Storage

end JavaSource
