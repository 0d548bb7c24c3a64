import JavaSource.Text.Basic

/-!
# Reserved words and primitive types

The words that no Java identifier may be, and the eight primitive types with their keywords.
-/

namespace JavaSource

/-- The reserved words of Java with its literals; `var` and `record` are ordinary names. -/
def reservedWords : List Text :=
  ["abstract", "assert", "boolean", "break", "byte", "case", "catch", "char", "class", "const",
    "continue", "default", "do", "double", "else", "enum", "extends", "final", "finally", "float",
    "for", "goto", "if", "implements", "import", "instanceof", "int", "interface", "long",
    "native", "new", "package", "private", "protected", "public", "return", "short", "static",
    "strictfp", "super", "switch", "synchronized", "this", "throw", "throws", "transient", "try",
    "void", "volatile", "while", "_", "true", "false", "null"].map String.toList

def isReserved (s : Text) : Bool := reservedWords.contains s

inductive Primitive
  | boolean
  | byte
  | char
  | short
  | int
  | long
  | float
  | double
deriving DecidableEq

namespace Primitive

def all : List Primitive := [boolean, byte, char, short, int, long, float, double]

def keyword : Primitive → Text
  | boolean => "boolean".toList
  | byte => "byte".toList
  | char => "char".toList
  | short => "short".toList
  | int => "int".toList
  | long => "long".toList
  | float => "float".toList
  | double => "double".toList

def ofKeyword? (s : Text) : Option Primitive := all.find? fun p => p.keyword = s

theorem ofKeyword?_keyword (p : Primitive) : ofKeyword? p.keyword = some p := by
  cases p <;> decide

theorem keyword_of_ofKeyword? {s : Text} {p : Primitive} (h : ofKeyword? s = some p) :
    p.keyword = s := by
  simpa using List.find?_some h

theorem isReserved_keyword (p : Primitive) : isReserved p.keyword = true := by
  cases p <;> decide

end Primitive

end JavaSource
