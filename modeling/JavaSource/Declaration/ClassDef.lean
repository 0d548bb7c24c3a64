import JavaSource.Declaration.Field
import JavaSource.Declaration.Method

/-!
# Classes and interfaces

A top-level class or interface with its supertypes and members.
-/

namespace JavaSource

inductive ClassKind
  | ordinary
  | interface
deriving DecidableEq

namespace ClassKind

def keyword : ClassKind → Text
  | ordinary => "class".toList
  | interface => "interface".toList

/-- What stands in front of the list of interfaces: a class implements them, an interface extends
them. -/
def interfacesLead : ClassKind → Text
  | ordinary => " implements ".toList
  | interface => " extends ".toList

end ClassKind

structure ClassDef where
  name : ClassName
  kind : ClassKind := .ordinary
  visibility : Visibility := .publicAccess
  isFinal : Bool := false
  isAbstract : Bool := false
  superclass : Option JavaType := none
  interfaces : List JavaType := []
  annotations : List ClassName := []
  doc : Doc := []
  fields : List Field := []
  /-- Constructors and methods. -/
  methods : List Method := []

namespace ClassDef

/-- The classes that a class mentions besides itself: supertypes, annotations, documentation,
fields and methods, in this order. -/
def classNames (c : ClassDef) : List ClassName :=
  (c.superclass.toList ++ c.interfaces).flatMap JavaType.classNames ++ c.annotations ++
    Doc.classNames c.doc ++ c.fields.flatMap Field.classNames ++
    c.methods.flatMap Method.classNames

def extendsClause (naming : Naming) (c : ClassDef) : Text :=
  match c.superclass with
  | some t => " extends ".toList ++ t.text naming
  | none => []

def interfacesClause (naming : Naming) (c : ClassDef) : Text :=
  if c.interfaces.isEmpty then []
  else c.kind.interfacesLead ++ Text.join [',', ' '] (c.interfaces.map (JavaType.text naming))

def head (naming : Naming) (c : ClassDef) : Text :=
  c.visibility.lead ++ modifierIf c.isAbstract "abstract".toList ++
    modifierIf c.isFinal "final".toList ++ c.kind.keyword ++ ' ' :: c.name.simple ++
    c.extendsClause naming ++ c.interfacesClause naming

/-- Methods with an empty line in front of each one that does not open the body. -/
def methodsLayout (naming : Naming) : (opensBody : Bool) → List Method → List Layout
  | _, [] => []
  | opensBody, m :: ms =>
    (if opensBody then [] else [.blank]) ++ m.layout naming ++ methodsLayout naming false ms

def members (naming : Naming) (c : ClassDef) : List Layout :=
  c.fields.flatMap (Field.layout naming) ++ methodsLayout naming c.fields.isEmpty c.methods

def layout (naming : Naming) (c : ClassDef) : List Layout :=
  Doc.layout naming c.doc ++ annotationLines naming c.annotations ++
    [.text (c.head naming), .line [' ', '{'], .indented (c.members naming), .line ['}']]

end ClassDef

end JavaSource
