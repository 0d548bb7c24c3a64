import JavaSource.Code
import JavaSource.Doc
import JavaSource.Declaration.Visibility

/-!
# Fields

A field with its type, initializer and documentation.
-/

namespace JavaSource

structure Field where
  name : Text
  type : JavaType
  visibility : Visibility := .privateAccess
  isStatic : Bool := false
  isFinal : Bool := false
  /-- The initializer without its semicolon. -/
  init : Option Code := none
  doc : Doc := []

namespace Field

/-- The classes that a field mentions: type, initializer and documentation, in this order. -/
def classNames (f : Field) : List ClassName :=
  f.type.classNames ++ Code.classNames (f.init.getD []) ++ Doc.classNames f.doc

def head (naming : Naming) (f : Field) : Text :=
  f.visibility.lead ++ modifierIf f.isStatic "static".toList ++
    modifierIf f.isFinal "final".toList ++ f.type.text naming ++ ' ' :: f.name

def layout (naming : Naming) (f : Field) : List Layout :=
  Doc.layout naming f.doc ++
    match f.init with
    | some code =>
      .text (f.head naming ++ " = ".toList) :: Code.layout naming code ++ [.line [';']]
    | none => [.line (f.head naming ++ [';'])]

end Field

end JavaSource
