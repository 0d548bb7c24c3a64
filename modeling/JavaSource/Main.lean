import JavaSource.CommandLine.Run

/-!
# The program

The command line on the files of the machine. Everything that is decided is decided by the plan of
a command; here its manifest is read, its files are written and its text is printed.
-/

namespace JavaSource.Main

open CommandLine

def readBytes (path : Text) : IO (Option (List UInt8)) :=
  try
    let bytes ← IO.FS.readBinFile (String.ofList path)
    return some bytes.toList
  catch _ => return none

/-- Writes a file and makes the directories that its path passes. -/
def writeBytes (path : Text) (content : List UInt8) : IO Bool :=
  try
    if let some (parent, _) := Text.splitLast? '/' path then
      IO.FS.createDirAll (String.ofList parent)
    IO.FS.writeBinFile (String.ofList path) (ByteArray.mk content.toArray)
    return true
  catch _ => return false

def machine : Storage IO := ⟨readBytes, writeBytes⟩

def complain (reason : Failure) : IO UInt32 := do
  IO.eprintln (String.ofList reason.message)
  return failureCode.toUInt32

def perform : Plan → IO UInt32
  | .fail reason => complain reason
  | .print text => do
    IO.print (String.ofList text)
    return 0
  | .write output files => do
    match ← machine.saveAll? output files {} with
    | some report =>
      IO.print (String.ofList (reportText output report))
      return 0
    | none => complain (.notWritten output)

end JavaSource.Main

open JavaSource.CommandLine in
def main (args : List String) : IO UInt32 := do
  match read (args.map String.toList) with
  | .version => IO.print (String.ofList versionText); return 0
  | .help => IO.print (String.ofList helpText); return 0
  | .misuse => IO.eprint (String.ofList helpText); return misuseCode.toUInt32
  | .run command =>
    JavaSource.Main.perform (command.plan (← JavaSource.Main.readBytes command.config))
