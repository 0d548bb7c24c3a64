import JavaSource.JavaType
import JavaSource.Layout.Basic

/-!
# Documentation comments

Text with links to types and to methods. A link to a method names the class that declares it and
the erased types of its arguments, so that it picks one overload.
-/

namespace JavaSource

/-- A reference to a method: its class, its name and its erased argument types. -/
structure MemberRef where
  owner : ClassName
  name : Text
  args : List JavaType

namespace MemberRef

def classNames (m : MemberRef) : List ClassName :=
  m.owner :: m.args.flatMap JavaType.classNames

def text (naming : Naming) (m : MemberRef) : Text :=
  naming m.owner ++ '#' :: m.name ++ '(' ::
    Text.join [',', ' '] (m.args.map (JavaType.text naming)) ++ [')']

end MemberRef

inductive DocFragment
  /-- Text; every line break in it ends a line. -/
  | text (s : Text)
  | typeLink (t : JavaType)
  | memberLink (m : MemberRef)

namespace DocFragment

def classNames : DocFragment → List ClassName
  | text _ => []
  | typeLink t => t.classNames
  | memberLink m => m.classNames

def linkTo (target : Text) : Text := "\x7b@link ".toList ++ target ++ ['}']

def layout (naming : Naming) : DocFragment → List Layout
  | text s => Layout.ofText s
  | typeLink t => [.text (linkTo (t.text naming))]
  | memberLink m => [.text (linkTo (m.text naming))]

end DocFragment

/-- A documentation comment, piece by piece; without pieces there is no comment. -/
abbrev Doc := List DocFragment

namespace Doc

def classNames (doc : Doc) : List ClassName := doc.flatMap DocFragment.classNames

def layout (naming : Naming) (doc : Doc) : List Layout :=
  if doc.isEmpty then [] else [.comment (doc.flatMap (DocFragment.layout naming))]

end Doc

end JavaSource
