import JavaSource.CompilationUnit
import JavaSource.Manifest.MemberLink

/-!
# Compilation units of a manifest

Every declared class becomes one compilation unit. The classes are built first with all their
members; their documentation is built in a second pass, in which a link to a method takes the
method's signature from the class built for it.
-/

namespace JavaSource

inductive BuildCause
  | invalidType (raw : Text) (problem : TypeProblem)
  | unresolvedLink (link : Text) (problem : LinkProblem)
  /-- A link to a method that was not built. -/
  | linkOutside (link : Text)

/-- A part of a manifest in which something cannot be built. -/
inductive BuildScope
  | inClass (name : Text)
  | inMethod (name : Text)
  | inDocumentation (name : Text)

/-- A cause with the parts around it, the outermost first. -/
structure BuildError where
  scopes : List BuildScope
  cause : BuildCause

def BuildCause.message : BuildCause → Text
  | invalidType raw problem =>
    "invalid type ".toList ++ Text.inQuotes raw ++ ": ".toList ++ problem.message
  | unresolvedLink link problem =>
    "cannot resolve member link ".toList ++ Text.inQuotes link ++ ": ".toList ++ problem.message
  | linkOutside link =>
    "member link ".toList ++ Text.inQuotes link ++ " points outside the manifest".toList

def BuildScope.message : BuildScope → Text
  | inClass name => "in class ".toList ++ Text.inQuotes name
  | inMethod name => "in method ".toList ++ Text.inQuotes name
  | inDocumentation name => "in documentation of class ".toList ++ Text.inQuotes name

/-- The messages of an error, from the outermost part to the cause. -/
def BuildError.messages (e : BuildError) : List Text :=
  e.scopes.map BuildScope.message ++ [e.cause.message]

abbrev Build (α : Type) := Except BuildError α

def Build.fail {α : Type} (cause : BuildCause) : Build α := .error ⟨[], cause⟩

def Build.within {α : Type} (scope : BuildScope) (b : Build α) : Build α :=
  b.mapError fun e => { e with scopes := scope :: e.scopes }

/-! ### Types and code -/

def TypeExpr.build (t : TypeExpr) : Build JavaType :=
  match t.problem? with
  | some problem => Build.fail (.invalidType t.raw problem)
  | none => .ok t.toType

def LinePart.build : LinePart → Build CodeFragment
  | .text s => .ok (.text s)
  | .type t => t.build.map .type

def CodeLine.build : CodeLine → Build Code
  | .text s => .ok [.text s]
  | .parts ps => ps.mapM LinePart.build

namespace BodyEntry

mutual

def build : BodyEntry → Build Code
  | text s => .ok (Code.line s)
  | line l => l.build.map fun code => code ++ Code.line []
  | block header body => (buildBody body).map fun code => Code.block header code

def buildBody : List BodyEntry → Build Code
  | [] => .ok []
  | e :: es => do
    let code ← build e
    let rest ← buildBody es
    return code ++ rest

end

end BodyEntry

/-! ### Members -/

def buildArguments (m : Method) (args : List ArgumentDecl) : Build Method :=
  args.foldlM (fun m (a : ArgumentDecl) => a.type.build.map (m.addArgument a.name)) m

/-- A method with the signature and the body that a member declares. -/
def buildMember (m : Method) (args : List ArgumentDecl) (throws : List TypeExpr)
    (annotations : List Text) (body : List BodyEntry) : Build Method := do
  let m ← buildArguments m args
  let exceptions ← throws.mapM TypeExpr.build
  let code ← BodyEntry.buildBody body
  return { m with exceptions, annotations := annotations.map ClassName.ofText, body := code }

def ConstructorDecl.build (className : Text) (c : ConstructorDecl) : Build Method :=
  buildMember
    { name := className, isConstructor := true
      visibility := c.visibility.getD .publicAccess }
    c.args c.throws c.annotations c.body

namespace MethodDecl

/-- The access level of a method, public unless it says otherwise. -/
def access (m : MethodDecl) : Visibility := m.visibility.getD .publicAccess

/-- A method without a body: one that says so, and in an interface an instance method that has no
body entries. -/
def buildsAbstract (inInterface : Bool) (m : MethodDecl) : Bool :=
  m.isAbstract || (inInterface && !m.isStatic && m.body.isEmpty)

/-- A default method: an instance method of an interface with a body that is not private. -/
def buildsDefault (inInterface : Bool) (m : MethodDecl) : Bool :=
  !m.buildsAbstract inInterface && inInterface && !m.isStatic && m.access != .privateAccess

def build (inInterface : Bool) (m : MethodDecl) : Build Method := do
  let returnType ← m.returns.mapM TypeExpr.build
  buildMember
    { name := m.name, returnType, visibility := m.access, isStatic := m.isStatic
      isFinal := m.isFinal, isAbstract := m.buildsAbstract inInterface
      isDefault := m.buildsDefault inInterface }
    m.args m.throws m.annotations m.body

end MethodDecl

/-- The field that is declared; fields of an interface are public unless they say otherwise, those
of a class private. -/
def FieldDecl.build (inInterface : Bool) (f : FieldDecl) : Build Field := do
  let type ← f.type.build
  let init ← f.init.mapM CodeLine.build
  let access := if inInterface then Visibility.publicAccess else .privateAccess
  return { name := f.name, type, init, visibility := f.visibility.getD access
           isStatic := f.isStatic, isFinal := f.isFinal }

/-! ### Classes without documentation -/

/-- The class that is declared, without documentation: constructors first, then methods. -/
def ClassDecl.build (c : ClassDecl) : Build ClassDef := do
  let superclass ← c.superclass.mapM TypeExpr.build
  let interfaces ← c.interfaces.mapM TypeExpr.build
  let fields ← c.fields.mapM (FieldDecl.build c.isInterface)
  let constructors ← c.constructors.mapM (ConstructorDecl.build c.simpleName)
  let methods ← c.methods.mapM fun m => Build.within (.inMethod m.name) (m.build c.isInterface)
  return { name := .ofText c.name
           kind := if c.isInterface then .interface else .ordinary
           visibility := c.visibility.getD .publicAccess
           isFinal := c.isFinal, isAbstract := c.isAbstract
           superclass, interfaces, annotations := c.annotations.map ClassName.ofText
           fields, methods := constructors ++ methods }

/-! ### Documentation -/

def MemberTarget.built? (classes : List ClassDef) (t : MemberTarget) :
    Option (ClassName × Method) := do
  let owner ← classes[t.classIndex]?
  let method ← owner.methods[t.classDecl.constructors.length + t.methodIndex]?
  return (owner.name, method)

/-- A part of a documentation comment, where the classes are built. -/
def DocPart.build (m : Manifest) (classes : List ClassDef) : DocPart → Build DocFragment
  | .text s => .ok (.text s)
  | .link t => t.build.map .typeLink
  | .member s =>
    match m.resolve s with
    | .error problem => Build.fail (.unresolvedLink s problem)
    | .ok target =>
      match target.built? classes with
      | some (owner, method) => .ok (.memberLink (method.memberRef owner))
      | none => Build.fail (.linkOutside s)

/-- A documentation comment, where the classes are built. -/
def buildDoc (m : Manifest) (classes : List ClassDef) (parts : List DocPart) : Build Doc :=
  parts.mapM (DocPart.build m classes)

structure ClassDocs where
  classDoc : Doc
  fields : List Doc
  /-- For constructors first, then methods. -/
  methods : List Doc

/-- The documentation that a class declares, where the classes are built. -/
def ClassDecl.buildDocs (m : Manifest) (classes : List ClassDef) (c : ClassDecl) :
    Build ClassDocs := do
  let constructors ← c.constructors.mapM fun d => buildDoc m classes d.doc
  let methods ← c.methods.mapM fun d => buildDoc m classes d.doc
  let classDoc ← buildDoc m classes c.doc
  let fields ← c.fields.mapM fun d => buildDoc m classes d.doc
  return ⟨classDoc, fields, constructors ++ methods⟩

def ClassDef.withDocs (c : ClassDef) (docs : ClassDocs) : ClassDef :=
  { c with
    doc := docs.classDoc
    fields := c.fields.zipWith (fun f doc => { f with doc }) docs.fields
    methods := c.methods.zipWith (fun m doc => { m with doc }) docs.methods }

/-! ### Units -/

namespace Manifest

/-- The simple names of the other classes in the package of a class. -/
def peers (m : Manifest) (c : ClassDecl) : List Text :=
  (m.classes.filter fun d => d.package = c.package && d.name ≠ c.name).map ClassDecl.simpleName

/-- The compilation units of a manifest, one for each class in the order of declaration. -/
def units (m : Manifest) : Build (List CompilationUnit) := do
  let classes ← m.classes.mapM fun c => Build.within (.inClass c.name) c.build
  let docs ← m.classes.mapM fun c =>
    Build.within (.inDocumentation c.name) (c.buildDocs m classes)
  let defs := classes.zipWith ClassDef.withDocs docs
  return defs.zipWith (fun d c => ⟨d, m.settings.header, m.peers c⟩) m.classes

end Manifest

end JavaSource
