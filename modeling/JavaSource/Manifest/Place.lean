import JavaSource.Manifest.Diagnostic

/-!
# Checks at a place

A place in a manifest is the path of names that leads to it, together with the text in which
problems are located. The checks of names and types word their diagnostics by the place.
-/

namespace JavaSource

/-- A place in a manifest: the manifest's text, and the names from the class down. -/
structure Place where
  source : Text
  path : List Text := []

namespace Place

def push (p : Place) (name : Text) : Place := { p with path := p.path ++ [name] }

/-- The names that lead to a place, with dots between them. -/
def pathText (p : Place) : Text := Text.join ['.'] p.path

/-- A kind of thing together with the place where it stands. -/
def context (p : Place) (kind : Text) : Text :=
  if p.path.isEmpty then kind else kind ++ " in ".toList ++ Text.inQuotes p.pathText

def nameSpan? (p : Place) (name : Text) : Option Span := (Span.ofName p.source name).head?

def nameProblem? (p : Place) (name kind : Text) : Option Diagnostic :=
  let span := p.nameSpan? name
  if isReserved name then some (.reservedKeyword span name (p.context kind))
  else (identifierProblem? name).map fun problem =>
    .invalidIdentifier span name (p.context kind) problem

/-- Why a name is no qualified name; a reserved word in any segment comes first. -/
def qualifiedProblem? (p : Place) (name kind : Text) : Option Diagnostic :=
  let span := (p.nameSpan? name).or (Span.ofValue? p.source name)
  match (Text.split '.' name).find? isReserved with
  | some word => some (.reservedKeyword span word (p.context kind))
  | none => (qualifiedNameProblem? name).map fun problem =>
    .invalidIdentifier span name (p.context kind) problem

def typeProblem? (p : Place) (t : TypeExpr) (kind : Text) : Option Diagnostic :=
  t.problem?.map fun problem =>
    .invalidType (Span.ofValue? p.source t.raw) t.raw (p.context kind) problem

def typesProblem? (p : Place) (ts : List TypeExpr) (kind : Text) : Option Diagnostic :=
  ts.findSome? fun t => p.typeProblem? t kind

end Place

end JavaSource
