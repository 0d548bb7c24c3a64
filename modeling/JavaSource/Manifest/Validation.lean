import JavaSource.Declaration.Method
import JavaSource.Manifest.OfToml
import JavaSource.Manifest.Place

/-!
# Validation

The checks that a manifest passes before anything is generated from it. They run in a fixed order
and the first problem found is the one reported: class by class in the order of declaration, and
the member links last, because they may lead to any class.
-/

namespace JavaSource

/-! ### Parts that several declarations share -/

/-- The first link of a documentation comment whose type is not accepted. -/
def docProblem? (p : Place) (doc : List DocPart) : Option Diagnostic :=
  doc.findSome? fun part =>
    match part with
    | .link t => p.typeProblem? t "doc link".toList
    | _ => none

def annotationProblem? (p : Place) (annotations : List Text) : Option Diagnostic :=
  annotations.findSome? fun a => p.qualifiedProblem? a "annotation".toList

def bodyProblem? (p : Place) (body : List BodyEntry) : Option Diagnostic :=
  p.typesProblem? (BodyEntry.typesOfBody body) "body type".toList

/-- The first problem of arguments from a position on: a bad name, a bad type, or a name that an
earlier argument has. An argument without a name is named after its position. -/
def argumentsProblem? (p : Place) : (position : Nat) → (seen : List Text) → List ArgumentDecl →
    Option Diagnostic
  | _, _, [] => none
  | position, seen, a :: rest =>
    let name := a.name.getD (Method.defaultArgumentName position)
    (a.name.bind fun n => p.nameProblem? n "argument".toList) <|>
      p.typeProblem? a.type "argument".toList <|>
      if name ∈ seen then
        some (.duplicateArgument (p.nameSpan? name) name (Text.inQuotes p.pathText))
      else argumentsProblem? p (position + 1) (name :: seen) rest

/-- The first problem of a signature: its arguments, exceptions and annotations. -/
def signatureProblem? (p : Place) (args : List ArgumentDecl) (throws : List TypeExpr)
    (annotations : List Text) : Option Diagnostic :=
  argumentsProblem? p 0 [] args <|> p.typesProblem? throws "thrown type".toList <|>
    annotationProblem? p annotations

/-! ### Members -/

namespace FieldDecl

/-- What an interface does not allow in a field: it is visible outside and has a value. -/
def interfaceProblem? (p : Place) (f : FieldDecl) : Option Diagnostic :=
  match f.visibility, f.init with
  | some .privateAccess, _ =>
    some (.brokenRule (.interfaceFieldVisibility p.pathText .privateAccess))
  | some .protectedAccess, _ =>
    some (.brokenRule (.interfaceFieldVisibility p.pathText .protectedAccess))
  | _, none => some (.brokenRule (.interfaceFieldWithoutInit p.pathText))
  | _, some _ => none

def problem? (p : Place) (inInterface : Bool) (f : FieldDecl) : Option Diagnostic :=
  let here := p.push f.name
  p.nameProblem? f.name "field".toList <|>
    (if inInterface then f.interfaceProblem? here else none) <|>
    here.typeProblem? f.type "field".toList <|>
    here.typesProblem? ((f.init.map CodeLine.types).getD []) "initializer".toList <|>
    docProblem? here f.doc

end FieldDecl

namespace ConstructorDecl

/-- The name under which the place of a constructor is reported. -/
def placeName : Text := "<init>".toList

def problem? (p : Place) (c : ConstructorDecl) : Option Diagnostic :=
  let here := p.push placeName
  signatureProblem? here c.args c.throws c.annotations <|> docProblem? here c.doc <|>
    bodyProblem? here c.body

end ConstructorDecl

namespace MethodDecl

/-- What an abstract method does not allow: a body and the modifiers that forbid overriding. -/
def abstractProblem? (p : Place) (m : MethodDecl) : Option Diagnostic :=
  if !m.isAbstract then none
  else if !m.body.isEmpty then some (.brokenRule (.abstractMethodBody p.pathText))
  else if m.isFinal || m.isStatic then
    some (.brokenRule (.abstractMethodModifier p.pathText m.isFinal))
  else none

def interfaceProblem? (p : Place) (m : MethodDecl) : Option Diagnostic :=
  if m.isFinal then some (.brokenRule (.interfaceMethod p.pathText .isFinal))
  else if m.visibility = some .protectedAccess then
    some (.brokenRule (.interfaceMethod p.pathText .isProtected))
  else if m.visibility = some .privateAccess ∧ m.body.isEmpty then
    some (.brokenRule (.interfaceMethod p.pathText .isPrivateWithoutBody))
  else none

def problem? (p : Place) (inInterface : Bool) (m : MethodDecl) : Option Diagnostic :=
  let here := p.push m.name
  p.nameProblem? m.name "method".toList <|>
    here.typesProblem? m.returns.toList "return type".toList <|>
    m.abstractProblem? here <|>
    (if inInterface then m.interfaceProblem? here else none) <|>
    signatureProblem? here m.args m.throws m.annotations <|> docProblem? here m.doc <|>
    bodyProblem? here m.body

end MethodDecl

/-! ### Classes -/

namespace ClassDecl

/-- The first problem of fields: of a field itself, or that its name is taken. -/
def fieldsProblem? (p : Place) (c : ClassDecl) : (seen : List Text) → List FieldDecl →
    Option Diagnostic
  | _, [] => none
  | seen, f :: rest =>
    f.problem? p c.isInterface <|>
      if f.name ∈ seen then some (.brokenRule (.duplicateField f.name c.name))
      else fieldsProblem? p c (f.name :: seen) rest

/-- The first problem of the superclass; an interface has none. -/
def superclassProblem? (p : Place) (c : ClassDecl) : Option Diagnostic :=
  match c.superclass with
  | none => none
  | some t =>
    if c.isInterface then some (.brokenRule (.interfaceSuperclass c.name))
    else p.typeProblem? t "superclass".toList

/-- The first problem of the constructors; an interface has none. -/
def constructorsProblem? (p : Place) (c : ClassDecl) : Option Diagnostic :=
  if c.isInterface && !c.constructors.isEmpty then
    some (.brokenRule (.interfaceConstructors c.name))
  else c.constructors.findSome? (ConstructorDecl.problem? p)

/-- The first problem of a class, its member links apart. -/
def problem? (p : Place) (c : ClassDecl) : Option Diagnostic :=
  let here := p.push c.simpleName
  p.qualifiedProblem? c.name "class".toList <|>
    (if c.isFinal && c.isAbstract then some (.brokenRule (.finalAbstractClass c.name)) else none) <|>
    c.superclassProblem? here <|>
    here.typesProblem? c.interfaces "interface".toList <|>
    annotationProblem? here c.annotations <|>
    docProblem? here c.doc <|>
    fieldsProblem? here c [] c.fields <|>
    c.constructorsProblem? here <|>
    c.methods.findSome? (MethodDecl.problem? here c.isInterface)

end ClassDecl

/-! ### Manifests -/

namespace Manifest

/-- The first problem of classes: of a class itself, or that its name is taken. -/
def classesProblem? (source : Text) : (seen : List Text) → List ClassDecl → Option Diagnostic
  | _, [] => none
  | seen, c :: rest =>
    c.problem? { source } <|>
      if c.name ∈ seen then
        let spans := Span.ofName source c.name
        some (.duplicateClass spans[0]? spans[1]? c.name)
      else classesProblem? source (c.name :: seen) rest

def linksProblem? (source : Text) (m : Manifest) : Option Diagnostic :=
  (m.classes.flatMap ClassDecl.docs).findSome? fun part =>
    match part with
    | .member link =>
      match m.resolve link with
      | .ok _ => none
      | .error problem => some (.unresolvedLink (Span.ofValue? source link) link problem)
    | _ => none

/-- The first problem of a manifest that was read from a text. -/
def problem? (source : Text) (m : Manifest) : Option Diagnostic :=
  classesProblem? source [] m.classes <|> m.linksProblem? source

def ofText (source : Text) : Except Diagnostic Manifest :=
  match ofText? source with
  | .error e => .error (.badDocument e)
  | .ok m =>
    match m.problem? source with
    | some d => .error d
    | none => .ok m

end Manifest

end JavaSource
