import JavaSource.Toml.Value

/-!
# Building tables

A document defines tables in pieces: by headers, by dotted keys, and as values. A table under
construction remembers how it came to be, because that decides how it may be extended: a table
that only a longer header implies may still be declared once, a table made by dotted keys takes
more dotted keys of the same section, and a table or array written as a value is closed.
-/

namespace JavaSource.Toml

inductive Origin
  | declared
  | implied
  | dotted
deriving DecidableEq

inductive Node
  /-- A value that cannot be extended. -/
  | closed (v : Value)
  | table (origin : Origin) (entries : List (Text × Node))
  /-- An array of tables, one for each of its headers. -/
  | tables (items : List (List (Text × Node)))

abbrev Entries := List (Text × Node)

namespace Entries

/-- Puts a node under a key, in place of the one that stands there. -/
def put (key : Text) (n : Node) (entries : Entries) : Entries :=
  entries.filter (fun e => e.1 ≠ key) ++ [(key, n)]

/-- Changes the table that a path leads to. Tables missing on the way are made; of an array of
tables the last one is entered. A dotted path does not enter a declared table. -/
def update (dotted : Bool) (change : Origin → Entries → Option Entries) :
    List Text → Origin → Entries → Option Entries
  | [], origin, entries => change origin entries
  | key :: path, _, entries =>
    match entries.lookup key with
    | none =>
      let origin := if dotted then Origin.dotted else Origin.implied
      (update dotted change path origin []).map fun es => entries.put key (.table origin es)
    | some (.table origin sub) =>
      if dotted && origin == .declared then none
      else
        (update dotted change path origin sub).map fun es => entries.put key (.table origin es)
    | some (.tables items) =>
      match items.getLast? with
      | some last =>
        (update dotted change path .declared last).map fun es =>
          entries.put key (.tables (items.dropLast ++ [es]))
      | none => none
    | some (.closed _) => none

/-- Adds a value under a dotted key. The last table on the way takes it only if it came to be in
the same manner: by a dotted key for a dotted key, in another manner for a plain one. -/
def insert (path : List Text) (key : Text) (v : Value) (entries : Entries) : Option Entries :=
  entries.update (!path.isEmpty)
    (fun origin es =>
      if (origin == .dotted) == path.isEmpty then none
      else if (es.lookup key).isSome then none
      else some (es.put key (.closed v)))
    path .declared

end Entries

/-! ### Finished values -/

def sortEntries (entries : List (Text × Value)) : List (Text × Value) :=
  entries.mergeSort fun a b => Text.notAfter a.1 b.1

mutual

def Node.value : Node → Value
  | .closed v => v
  | .table _ entries => .table (sortEntries (valuesOfEntries entries))
  | .tables items => .array (valuesOfTables items)

def valuesOfEntries : List (Text × Node) → List (Text × Value)
  | [] => []
  | (key, n) :: rest => (key, n.value) :: valuesOfEntries rest

def valuesOfTables : List (List (Text × Node)) → List Value
  | [] => []
  | es :: rest => .table (sortEntries (valuesOfEntries es)) :: valuesOfTables rest

end

end JavaSource.Toml
