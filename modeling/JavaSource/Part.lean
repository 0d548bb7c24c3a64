import JavaSource.Imports
import JavaSource.Declaration.ClassDef

/-!
# Parts of a file

Code, comments, members and classes take part in a file in the same two steps: a part first claims
the simple names of the classes that it mentions, and is written when all claims are made.
-/

namespace JavaSource

/-- What can be written on its own. -/
inductive Part
  | code (c : Code)
  | doc (d : Doc)
  | field (f : Field)
  | method (m : Method)
  | classDef (c : ClassDef)

namespace Part

/-- The classes that a part mentions, in the order of their claims. -/
def classNames : Part → List ClassName
  | code c => Code.classNames c
  | doc d => Doc.classNames d
  | field f => f.classNames
  | method m => m.classNames
  | classDef c => c.classNames

def layout (naming : Naming) : Part → List Layout
  | code c => Code.layout naming c
  | doc d => Doc.layout naming d
  | field f => f.layout naming
  | method m => m.layout naming
  | classDef c => c.layout naming

/-- Claims the simple names of the classes that a part mentions. -/
def collect (p : Part) (r : Imports) : Imports := r.claimAll p.classNames

/-- The text of a part inside a number of indented scopes. -/
def text (r : Imports) (indent : Indent) (depth : Nat) (p : Part) : Text :=
  Layout.render indent (Layout.nest depth (p.layout r.name))

end Part

end JavaSource
