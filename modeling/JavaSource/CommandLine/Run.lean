import JavaSource.CommandLine.Arguments
import JavaSource.Disk.Storage
import JavaSource.Manifest.Building
import JavaSource.Manifest.Validation

/-!
# Running commands

What a command does is planned from the bytes of the manifest's file alone: it fails, or prints a
text, or writes files and prints what became of them. A plan is carried out on a disk; the result
is an exit code, a printed text and the disk.
-/

namespace JavaSource

/-- Reads and validates the manifest in the file at a path, given the bytes of the file. -/
def Manifest.ofFile (path : Text) (bytes : Option (List UInt8)) : Except Diagnostic Manifest :=
  match bytes.bind Text.ofUtf8? with
  | some source => Manifest.ofText source
  | none => .error (.unreadable path)

namespace CommandLine

inductive Failure
  | rejected (d : Diagnostic)
  | notBuilt (e : BuildError)
  /-- A file below the output directory cannot be written. -/
  | notWritten (output : Text)

def Failure.message : Failure → Text
  | rejected d => d.message
  | notBuilt e => Text.join [':', ' '] e.messages
  | notWritten output => "Failed to write to ".toList ++ output

inductive Plan
  | fail (reason : Failure)
  | print (text : Text)
  | write (output : Text) (files : List OutputFile)

def counted (n : Nat) (one many : String) : Text :=
  Text.ofNat n ++ ' ' :: (if n = 1 then one else many).toList

/-- The lines of a check for one unit: its class, and the signatures of its methods as they stand
in the generated file. -/
def summary (u : CompilationUnit) : Text :=
  "    ".toList ++ u.classDef.kind.keyword ++ ' ' :: u.classDef.name.qualified ++ ['\n'] ++
    u.classDef.methods.flatMap fun m =>
      "      ".toList ++ m.signature u.imports.name ++ ['\n']

def checkText (config : Text) (units : List CompilationUnit) : Text :=
  "✓ ".toList ++ config ++ " is valid\n\n  ".toList ++
    counted units.length "class" "classes" ++ ":\n".toList ++ units.flatMap summary

def previewText (files : List OutputFile) : Text :=
  (files.flatMap fun f =>
    "── ".toList ++ f.path ++ " ──\n".toList ++ f.content ++ ['\n']) ++
    "── Summary ──\n".toList ++ counted files.length "file" "files" ++
    " would be generated\n".toList

def reportText (output : Text) (report : WriteReport) : Text :=
  "Generated: ".toList ++ output ++ "/\n".toList ++
    (report.written.flatMap fun p => "  + ".toList ++ p ++ ['\n']) ++
    (report.unchanged.flatMap fun p => "  = ".toList ++ p ++ ['\n']) ++
    ['\n'] ++ Text.ofNat report.written.length ++ " written, ".toList ++
    Text.ofNat report.unchanged.length ++ " unchanged\n".toList

def Command.config : Command → Text
  | .generate config _ _ => config
  | .check config => config

def outputFiles (m : Manifest) (units : List CompilationUnit) : List OutputFile :=
  units.map (CompilationUnit.outputFile m.settings.indent)

/-- The manifest in the bytes of a file, with its units. -/
def load (path : Text) (bytes : Option (List UInt8)) :
    Except Failure (Manifest × List CompilationUnit) := do
  let m ← (Manifest.ofFile path bytes).mapError .rejected
  let units ← m.units.mapError .notBuilt
  return (m, units)

/-- The plan of a command, given the bytes of its manifest's file. -/
def Command.plan (command : Command) (bytes : Option (List UInt8)) : Plan :=
  match load command.config bytes with
  | .error reason => .fail reason
  | .ok (m, units) =>
    match command with
    | .check config => .print (checkText config units)
    | .generate _ output dryRun =>
      let files := outputFiles m units
      if dryRun then .print (previewText files) else .write output files

def versionText : Text := "jwrap 0.1.0\n".toList

def helpText : Text :=
  ("Generate Java wrapper classes from TOML definitions\n\n" ++
    "Usage: jwrap generate [-c FILE] [-o DIR] [--dry-run]\n" ++
    "       jwrap check [-c FILE]\n").toList

def failureCode : Nat := 1

/-- The exit code for arguments that are not understood. -/
def misuseCode : Nat := 2

structure Outcome where
  code : Nat
  stdout : Text
  disk : Disk

def Plan.perform (disk : Disk) : Plan → Outcome
  | .fail _ => ⟨failureCode, [], disk⟩
  | .print text => ⟨0, text, disk⟩
  | .write output files =>
    match disk.saveAll? output files with
    | (some report, disk) => ⟨0, reportText output report, disk⟩
    | (none, disk) => ⟨failureCode, [], disk⟩

def run (disk : Disk) (args : List Text) : Outcome :=
  match read args with
  | .version => ⟨0, versionText, disk⟩
  | .help => ⟨0, helpText, disk⟩
  | .misuse => ⟨misuseCode, [], disk⟩
  | .run command => (command.plan (disk.readPath? command.config)).perform disk

end CommandLine

end JavaSource
