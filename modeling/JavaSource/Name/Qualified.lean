import JavaSource.Name.Identifier

/-!
# Qualified names

A qualified name is a list of identifiers with dots between them. Its last segment is the simple
name; what stands before the last dot is the qualifier, whose segments name the directories of a
package.
-/

namespace JavaSource

/-- The first reason why one segment of a qualified name is no identifier. -/
def segmentProblem? (segment : Text) : Option NameProblem :=
  if segment.isEmpty then some .emptySegment else identifierProblem? segment

def qualifiedNameProblem? (s : Text) : Option NameProblem :=
  if s.isEmpty then some .empty else (Text.split '.' s).findSome? segmentProblem?

/-- The qualifier, empty without a dot, and the simple name. -/
def splitQualified (s : Text) : Text × Text :=
  (Text.splitLast? '.' s).getD ([], s)

/-- Adds a part to a path: a part that starts with a slash replaces what stands before it, and
otherwise a slash is put between the two unless the path ends in one. -/
def appendPathPart (path part : Text) : Text :=
  if part.head? = some '/' || path.isEmpty then part
  else if path.getLast? = some '/' then path ++ part
  else path ++ '/' :: part

/-- The directory of a package: its segments, less the empty ones, as a path. -/
def packageDir (package : Text) : Text :=
  ((Text.split '.' package).filter fun s => !s.isEmpty).foldl appendPathPart []

end JavaSource
