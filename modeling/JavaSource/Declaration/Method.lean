import JavaSource.Code
import JavaSource.Doc
import JavaSource.Declaration.Annotation
import JavaSource.Declaration.Visibility

/-!
# Methods and constructors

A method with its signature, body and documentation. A constructor is a method without a return
type that bears the name of its class.
-/

namespace JavaSource

structure Argument where
  name : Text
  type : JavaType

structure Method where
  name : Text
  /-- The type of the value; none stands for `void`. -/
  returnType : Option JavaType := none
  arguments : List Argument := []
  exceptions : List JavaType := []
  body : Code := []
  visibility : Visibility := .publicAccess
  isStatic : Bool := false
  isFinal : Bool := false
  /-- Without a body. -/
  isAbstract : Bool := false
  /-- An interface method with a body. -/
  isDefault : Bool := false
  isConstructor : Bool := false
  annotations : List ClassName := []
  doc : Doc := []

namespace Method

/-- The name of an argument that was given none: `arg` and the argument's position. -/
def defaultArgumentName (position : Nat) : Text := "arg".toList ++ Text.ofNat position

/-- Adds an argument; without a name it is named after its position. -/
def addArgument (m : Method) (name : Option Text) (type : JavaType) : Method :=
  let name := name.getD (defaultArgumentName m.arguments.length)
  { m with arguments := m.arguments ++ [⟨name, type⟩] }

/-- The classes that a method mentions: return type, arguments, exceptions, body, annotations and
documentation, in this order. -/
def classNames (m : Method) : List ClassName :=
  (m.returnType.toList ++ m.arguments.map Argument.type ++ m.exceptions).flatMap
      JavaType.classNames ++
    Code.classNames m.body ++ m.annotations ++ Doc.classNames m.doc

/-- The text of the return type and a blank; a constructor has none. -/
def returnLead (naming : Naming) (m : Method) : Text :=
  if m.isConstructor then []
  else
    (match m.returnType with
      | some t => t.text naming
      | none => "void".toList) ++ [' ']

def argumentText (naming : Naming) (a : Argument) : Text :=
  a.type.text naming ++ ' ' :: a.name

def throwsClause (naming : Naming) (m : Method) : Text :=
  if m.exceptions.isEmpty then []
  else " throws ".toList ++ Text.join [',', ' '] (m.exceptions.map (JavaType.text naming))

def signature (naming : Naming) (m : Method) : Text :=
  m.visibility.lead ++ modifierIf m.isDefault "default".toList ++
    modifierIf m.isAbstract "abstract".toList ++ modifierIf m.isStatic "static".toList ++
    modifierIf m.isFinal "final".toList ++ m.returnLead naming ++ m.name ++
    '(' :: Text.join [',', ' '] (m.arguments.map (argumentText naming)) ++ [')'] ++
    m.throwsClause naming

/-- The layouts of a method; an abstract method ends with its signature. -/
def layout (naming : Naming) (m : Method) : List Layout :=
  Doc.layout naming m.doc ++ annotationLines naming m.annotations ++
    .text (m.signature naming) ::
      if m.isAbstract then [.line [';']]
      else [.line [' ', '{'], .indented (Code.layout naming m.body), .line ['}']]

/-- A reference to a method of a class, with the erasures of its argument types. -/
def memberRef (owner : ClassName) (m : Method) : MemberRef :=
  ⟨owner, m.name, m.arguments.map fun a => a.type.erasure⟩

end Method

end JavaSource
