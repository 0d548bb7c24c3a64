import JavaSource.JavaType
import JavaSource.Layout.Basic

/-!
# Code

The body of a method or the initializer of a field: text in which types are kept apart, so that
they are written short or in full as the file's imports decide, and nested code.
-/

namespace JavaSource

inductive CodeFragment
  /-- Text; every line break in it ends a line. -/
  | text (s : Text)
  | type (t : JavaType)
  /-- Code one unit deeper. -/
  | indented (body : List CodeFragment)

abbrev Code := List CodeFragment

namespace Code

def line (s : Text) : Code := [.text (s ++ ['\n'])]

/-- A header with an opening brace, the body one unit deeper, and the closing brace. -/
def block (header : Text) (body : Code) : Code :=
  line (header ++ [' ', '{']) ++ [.indented body] ++ line ['}']

mutual

/-- The classes that a piece of code mentions, in order. -/
def classNamesOfFragment : CodeFragment → List ClassName
  | .text _ => []
  | .type t => t.classNames
  | .indented body => classNames body

def classNames : List CodeFragment → List ClassName
  | [] => []
  | f :: fs => classNamesOfFragment f ++ classNames fs

end

mutual

def layoutOfFragment (naming : Naming) : CodeFragment → List Layout
  | .text s => Layout.ofText s
  | .type t => [.text (t.text naming)]
  | .indented body => [.indented (layout naming body)]

def layout (naming : Naming) : List CodeFragment → List Layout
  | [] => []
  | f :: fs => layoutOfFragment naming f ++ layout naming fs

end

theorem classNames_append (a b : Code) : classNames (a ++ b) = classNames a ++ classNames b := by
  induction a with
  | nil => rfl
  | cons f fs ih => simp [classNames, ih]

theorem layout_append (naming : Naming) (a b : Code) :
    layout naming (a ++ b) = layout naming a ++ layout naming b := by
  induction a with
  | nil => rfl
  | cons f fs ih => simp [layout, ih]

end Code

end JavaSource
