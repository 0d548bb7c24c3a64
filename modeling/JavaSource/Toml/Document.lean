import JavaSource.Toml.Quoted
import JavaSource.Toml.Scalar
import JavaSource.Toml.Table

/-!
# Documents

A document is a sequence of lines: headers that open a table or the next table of an array, and
keys with values for the table that is open. Reading gives the table of the whole document, or
nothing where the text is no document.
-/

namespace JavaSource.Toml

/-! ### Keys -/

def isBareKeyChar (c : Char) : Bool := c.isAlphanum || c == '_' || c == '-'

def keyPart? (s : Text) : Option (Text × Text) :=
  match s with
  | '"' :: rest => basicString .plain rest
  | '\'' :: rest => literalString rest
  | _ =>
    let part := s.takeWhile isBareKeyChar
    if part.isEmpty then none else some (part, s.dropWhile isBareKeyChar)

def maxKeyParts : Nat := 80

/-- Reads a key of at most `limit` parts with dots between them. The first part comes with the
others behind it. -/
def key? : (limit : Nat) → Text → Option ((Text × List Text) × Text)
  | 0, _ => none
  | limit + 1, s => do
    let (part, rest) ← keyPart? (skipSpaces s)
    let rest := skipSpaces rest
    match rest with
    | '.' :: more =>
      let ((next, parts), rest) ← key? limit more
      some ((part, next :: parts), rest)
    | _ => some ((part, []), rest)

/-- The parts of a key before its last one, and the last one. -/
def splitKey : Text × List Text → List Text × Text
  | (part, []) => ([], part)
  | (part, next :: parts) =>
    let p := splitKey (next, parts)
    (part :: p.1, p.2)

structure Entry where
  path : List Text
  key : Text
  value : Value

/-- Reads a key, an equals sign and a value, with a gap on both sides of the sign. -/
def keyValue? (gap : Text → Option Text) (value : Text → Option (Value × Text)) (s : Text) :
    Option (Entry × Text) := do
  let (key, rest) ← key? maxKeyParts s
  let p := splitKey key
  match ← gap rest with
  | '=' :: rest =>
    let (v, rest) ← value (← gap rest)
    some (⟨p.1, p.2, v⟩, rest)
  | _ => none

/-! ### Values -/

/-- Reads items with commas between them up to a closing bracket; a comma may also stand behind
the last one. -/
def sequence? {α : Type} (close : Char) (item : Text → Option (α × Text)) :
    (fuel : Nat) → Text → Option (List α × Text)
  | 0, _ => none
  | fuel + 1, s => do
    let s ← skipLines false s
    if s.head? = some close then return ([], s.tail)
    let (a, s) ← item s
    let s ← skipLines false s
    match s with
    | ',' :: s =>
      let (as, s) ← sequence? close item fuel s
      return (a :: as, s)
    | c :: s => if c = close then return ([a], s) else none
    | [] => none

def inlineTable? (entries : List Entry) : Option Value :=
  (entries.foldlM (fun es (e : Entry) => Entries.insert e.path e.key e.value es) []).map fun es =>
    (Node.table .declared es).value

/-- Reads a value in which arrays and inline tables are nested at most `depth` deep. Between the
parts of both, lines may end and comments may stand. -/
def value? : (depth : Nat) → Text → Option (Value × Text)
  | depth, '[' :: s =>
    match depth with
    | 0 => none
    | depth + 1 =>
      (sequence? ']' (value? depth) (s.length + 1) s).map fun p => (.array p.1, p.2)
  | depth, '{' :: s =>
    match depth with
    | 0 => none
    | depth + 1 =>
      (sequence? '}' (keyValue? (skipLines false) (value? depth)) (s.length + 1) s).bind fun p =>
        (inlineTable? p.1).map fun v => (v, p.2)
  | _, '"' :: s => (string? ('"' :: s)).map fun p => (.string p.1, p.2)
  | _, '\'' :: s => (string? ('\'' :: s)).map fun p => (.string p.1, p.2)
  | _, s => scalar? s

/-- The number of arrays and inline tables that may be nested in one another. -/
def maxDepth : Nat := 80

/-! ### Sections -/

inductive Line
  | header (path : List Text) (key : Text)
  /-- A header for the next table of an array. -/
  | item (path : List Text) (key : Text)
  | entry (e : Entry)

/-- Reads a header behind its opening brackets, up to the same number of closing ones. -/
def header? (closing s : Text) : Option ((List Text × Text) × Text) := do
  let (key, rest) ← key? maxKeyParts s
  let rest ← closing.isPrefixOf? rest
  return (splitKey key, rest)

def line? : Text → Option (Line × Text)
  | '[' :: '[' :: s => (header? [']', ']'] s).map fun p => (.item p.1.1 p.1.2, p.2)
  | '[' :: s => (header? [']'] s).map fun p => (.header p.1.1 p.1.2, p.2)
  | s => (keyValue? (some ∘ skipSpaces) (value? maxDepth) s).map fun p => (.entry p.1, p.2)

def lines? : (fuel : Nat) → Text → Option (List Line)
  | 0, _ => none
  | fuel + 1, s => do
    let s ← skipLines false s
    if s.isEmpty then return []
    let (l, s) ← line? s
    let ls ← lines? fuel (← endLine s)
    return l :: ls

/-- The entries at the front of the lines, and the lines from the next header on. -/
def takeEntries : List Line → List Entry × List Line
  | .entry e :: ls =>
    let p := takeEntries ls
    (e :: p.1, p.2)
  | ls => ([], ls)

def fill (base : Entries) (entries : List Entry) : Option Entries :=
  entries.foldlM (fun es (e : Entry) => es.insert e.path e.key e.value) base

/-- Opens a table by its header: one that exists may only be implied by longer headers. -/
def declare (key : Text) (entries : List Entry) (parent : Entries) : Option Entries := do
  let base ← match parent.lookup key with
    | none => some []
    | some (.table .implied es) => some es
    | some _ => none
  return parent.put key (.table .declared (← fill base entries))

def addItem (key : Text) (entries : List Entry) (parent : Entries) : Option Entries := do
  let items ← match parent.lookup key with
    | none => some []
    | some (.tables items) => some items
    | some _ => none
  return parent.put key (.tables (items ++ [← fill [] entries]))

def addSections : (fuel : Nat) → List Line → Entries → Option Entries
  | 0, _, _ => none
  | _, [], es => some es
  | fuel + 1, l :: ls, es => do
    let (entries, rest) := takeEntries ls
    match l with
    | .header path key =>
      addSections fuel rest (← es.update false (fun _ => declare key entries) path .declared)
    | .item path key =>
      addSections fuel rest (← es.update false (fun _ => addItem key entries) path .declared)
    | .entry _ => none

/-- The table of a document. A byte order mark at its start is skipped. -/
def parse? (s : Text) : Option (List (Text × Value)) := do
  let s := if s.head? = some '\ufeff' then s.tail else s
  let ls ← lines? (s.length + 1) s
  let (entries, rest) := takeEntries ls
  let top ← fill [] entries
  let es ← addSections (rest.length + 1) rest top
  return sortEntries (valuesOfEntries es)

end JavaSource.Toml
