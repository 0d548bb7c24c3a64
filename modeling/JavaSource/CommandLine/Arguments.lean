import JavaSource.Text.Basic

/-!
# Command-line arguments

The program has two commands, one that generates files and one that only checks the manifest.
Options may be written `--option value`, `--option=value`, `-o value`, `-ovalue` or `-o=value`, and
short flags may share one dash. Each option may be given once and needs a value that is not
empty; a value of its own argument does not start with a dash unless it is a single dash.
-/

namespace JavaSource.CommandLine

inductive Command
  | generate (config output : Text) (dryRun : Bool)
  | check (config : Text)
deriving DecidableEq

inductive Request
  | run (command : Command)
  | version
  | help
  /-- Arguments that are not understood. -/
  | misuse
deriving DecidableEq

def defaultConfig : Text := "jwrap.toml".toList

def defaultOutput : Text := "out".toList

/-- The options of a command as far as they have been read. -/
structure Options where
  /-- Whether the command writes files. -/
  generates : Bool
  config : Option Text := none
  output : Option Text := none
  dryRun : Bool := false

def Options.command (o : Options) : Command :=
  if o.generates then
    .generate (o.config.getD defaultConfig) (o.output.getD defaultOutput) o.dryRun
  else .check (o.config.getD defaultConfig)

inductive OptionName
  | config
  | output
deriving DecidableEq

/-- Gives an option its value: once, and only where the command has it. -/
def Options.set? (o : Options) (name : OptionName) (value : Text) : Option Options :=
  if value.isEmpty then none
  else
    match name with
    | .config => if o.config.isSome then none else some { o with config := some value }
    | .output =>
      if o.output.isSome || !o.generates then none else some { o with output := some value }

def optionOfLetter? (generates : Bool) : Char → Option OptionName
  | 'c' => some .config
  | 'o' => if generates then some .output else none
  | _ => none

def optionOfName? (generates : Bool) (name : Text) : Option OptionName :=
  if name = "config".toList then some .config
  else if name = "output".toList ∧ generates then some .output
  else none

inductive Reading
  | options (o : Options)
  /-- The next argument is the value of an option. -/
  | needsValue (o : Options) (name : OptionName)
  | done (request : Request)

def readLetters (o : Options) : Text → Reading
  | [] => .options o
  | 'v' :: rest => readLetters o rest
  | 'h' :: _ => .done .help
  | c :: rest =>
    match optionOfLetter? o.generates c with
    | none => .done .misuse
    | some name =>
      if rest.isEmpty then .needsValue o name
      else
        match o.set? name (if rest.head? = some '=' then rest.tail else rest) with
        | some o => .options o
        | none => .done .misuse

def readLong (o : Options) (s : Text) : Reading :=
  match Text.splitFirst? '=' s with
  | some (name, value) =>
    match (optionOfName? o.generates name).bind fun n => o.set? n value with
    | some o => .options o
    | none => .done .misuse
  | none =>
    if s = "verbose".toList then .options o
    else if s = "help".toList then .done .help
    else if s = "dry-run".toList ∧ o.generates ∧ !o.dryRun then .options { o with dryRun := true }
    else
      match optionOfName? o.generates s with
      | some name => .needsValue o name
      | none => .done .misuse

/-- Whether an argument can be the value of the option before it. -/
def isValue (s : Text) : Bool := s.head? != some '-' || s = ['-']

def readCommand (o : Options) : List Text → Request
  | [] => .run o.command
  | arg :: rest =>
    let reading :=
      match arg with
      | '-' :: '-' :: s => readLong o s
      | '-' :: c :: s => readLetters o (c :: s)
      | _ => .done .misuse
    if arg = ['-', '-'] then if rest.isEmpty then .run o.command else .misuse
    else
      match reading, rest with
      | .options o, rest => readCommand o rest
      | .done request, _ => request
      | .needsValue o name, value :: rest =>
        if isValue value then
          match o.set? name value with
          | some o => readCommand o rest
          | none => .misuse
        else .misuse
      | .needsValue _ _, [] => .misuse

/-- Reads the letters behind one dash in front of a command: none where all are flags. -/
def readTopLetters : Text → Option Request
  | [] => none
  | 'v' :: rest => readTopLetters rest
  | 'V' :: _ => some .version
  | 'h' :: _ => some .help
  | _ => some .misuse

/-- Reads the arguments behind the word for help: at most the name of a subcommand. -/
def readHelp : List Text → Request
  | [] => .help
  | [name] =>
    if ["generate", "check", "completions", "help"].any fun n => name = n.toList then .help
    else .misuse
  | _ => .misuse

def read : List Text → Request
  | [] => .misuse
  | arg :: rest =>
    if arg = "generate".toList then readCommand { generates := true } rest
    else if arg = "check".toList then readCommand { generates := false } rest
    else if arg = "--verbose".toList then read rest
    else if arg = "--version".toList then .version
    else if arg = "--help".toList then .help
    else if arg = "help".toList then readHelp rest
    else
      match arg with
      | '-' :: c :: s =>
        if c = '-' then .misuse
        else
          match readTopLetters (c :: s) with
          | some request => request
          | none => read rest
      | _ => .misuse

end JavaSource.CommandLine
