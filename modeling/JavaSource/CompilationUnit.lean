import JavaSource.Imports
import JavaSource.Declaration.ClassDef

/-!
# Compilation units

A source file with one class: an optional header of line comments, the package, the imports and
the class. The class claims its own simple name first, then those of the other classes of its
package, then those that it mentions; only when all claims are made is any text written.
-/

namespace JavaSource

structure CompilationUnit where
  classDef : ClassDef
  /-- The text of the comment at the top. -/
  header : Option Text := none
  /-- The simple names of other classes of the same package. -/
  peers : List Text := []

namespace CompilationUnit

/-- The package of a unit, empty for the default package. -/
def package (u : CompilationUnit) : Text := u.classDef.name.qualifier

def path (u : CompilationUnit) : Text :=
  appendPathPart (packageDir u.package) (u.classDef.name.simple ++ ".java".toList)

/-- The classes whose simple names a unit claims, in order. -/
def claims (u : CompilationUnit) : List ClassName :=
  u.classDef.name :: u.peers.map (ClassName.mk u.package) ++ u.classDef.classNames

def imports (u : CompilationUnit) : Imports := (Imports.forPackage u.package).claimAll u.claims

def headerLine (s : Text) : Layout :=
  .line (if s.isEmpty then ['/', '/'] else ['/', '/', ' '] ++ s)

def headerLayout (u : CompilationUnit) : List Layout :=
  match u.header with
  | some s => (Text.lines s).map headerLine ++ [.blank]
  | none => []

/-- The package declaration and the empty line behind it. -/
def packageLayout (u : CompilationUnit) : List Layout :=
  if u.package.isEmpty then []
  else [.line ("package ".toList ++ u.package ++ [';']), .blank]

def importLine (c : ClassName) : Layout :=
  .line ("import ".toList ++ c.qualified ++ [';'])

def importsLayout (u : CompilationUnit) : List Layout :=
  let lines := u.imports.importLines
  if lines.isEmpty then [] else lines.map importLine ++ [.blank]

def layout (u : CompilationUnit) : List Layout :=
  u.headerLayout ++ u.packageLayout ++ u.importsLayout ++ u.classDef.layout u.imports.name

def render (indent : Indent) (u : CompilationUnit) : Text := Layout.render indent u.layout

end CompilationUnit

end JavaSource
