import JavaSource.Declaration.Visibility
import JavaSource.Layout.Indent
import JavaSource.Manifest.TypeExpr

/-!
# Manifests

A manifest declares the classes to generate, with their members, bodies and documentation, as
its author wrote them: names and types are texts that nothing has checked yet.
-/

namespace JavaSource

inductive LinePart
  | text (s : Text)
  | type (t : TypeExpr)

/-- A line of code: one text, or parts that mix text and types. -/
inductive CodeLine
  | text (s : Text)
  | parts (ps : List LinePart)

/-- An entry of a body: a plain line, a line with types in it, or a block of entries behind a
header. -/
inductive BodyEntry
  | text (s : Text)
  | line (l : CodeLine)
  | block (header : Text) (body : List BodyEntry)

/-- A part of a documentation comment; a member link names a method as `class#method`, with the
argument types behind it where the name alone is not enough. -/
inductive DocPart
  | text (s : Text)
  | link (t : TypeExpr)
  | member (link : Text)

/-- A declared argument; without a name it is named after its position. -/
structure ArgumentDecl where
  name : Option Text := none
  type : TypeExpr := .name []

structure FieldDecl where
  name : Text := []
  type : TypeExpr := .name []
  visibility : Option Visibility := none
  isStatic : Bool := false
  isFinal : Bool := false
  init : Option CodeLine := none
  doc : List DocPart := []

structure ConstructorDecl where
  args : List ArgumentDecl := []
  throws : List TypeExpr := []
  visibility : Option Visibility := none
  annotations : List Text := []
  doc : List DocPart := []
  body : List BodyEntry := []

structure MethodDecl where
  name : Text := []
  returns : Option TypeExpr := none
  args : List ArgumentDecl := []
  throws : List TypeExpr := []
  visibility : Option Visibility := none
  isStatic : Bool := false
  isFinal : Bool := false
  isAbstract : Bool := false
  annotations : List Text := []
  doc : List DocPart := []
  body : List BodyEntry := []

structure ClassDecl where
  name : Text := []
  isInterface : Bool := false
  visibility : Option Visibility := none
  isFinal : Bool := false
  isAbstract : Bool := false
  superclass : Option TypeExpr := none
  interfaces : List TypeExpr := []
  annotations : List Text := []
  doc : List DocPart := []
  fields : List FieldDecl := []
  constructors : List ConstructorDecl := []
  methods : List MethodDecl := []

/-- What all generated files share: the unit of indentation and the comment at the top. -/
structure Settings where
  indent : Indent := .standard
  header : Option Text := none

/-- A manifest: the settings of generated files and the classes in the order of the files. -/
structure Manifest where
  settings : Settings := {}
  classes : List ClassDecl := []

/-- The word by which a manifest names an access level. -/
def Visibility.word : Visibility → Text
  | publicAccess => "public".toList
  | protectedAccess => "protected".toList
  | packageAccess => "package".toList
  | privateAccess => "private".toList

def Visibility.all : List Visibility :=
  [publicAccess, protectedAccess, packageAccess, privateAccess]

namespace CodeLine

def types : CodeLine → List TypeExpr
  | text _ => []
  | parts ps => ps.filterMap fun p =>
    match p with
    | .text _ => none
    | .type t => some t

end CodeLine

namespace BodyEntry

mutual

def types : BodyEntry → List TypeExpr
  | text _ => []
  | line l => l.types
  | block _ body => typesOfBody body

def typesOfBody : List BodyEntry → List TypeExpr
  | [] => []
  | e :: es => e.types ++ typesOfBody es

end

end BodyEntry

/-- The erased argument types of a method, by which a link picks an overload. -/
def MethodDecl.erasedArgs (m : MethodDecl) : List Text :=
  m.args.map fun a => a.type.erasedName

namespace ClassDecl

def package (c : ClassDecl) : Text := (splitQualified c.name).1

def simpleName (c : ClassDecl) : Text := (splitQualified c.name).2

/-- The documentation of a class and of all its members. -/
def docs (c : ClassDecl) : List DocPart :=
  c.doc ++ c.fields.flatMap FieldDecl.doc ++ c.constructors.flatMap ConstructorDecl.doc ++
    c.methods.flatMap MethodDecl.doc

theorem mem_docs_iff {c : ClassDecl} {part : DocPart} :
    part ∈ c.docs ↔ part ∈ c.doc ∨ (∃ f ∈ c.fields, part ∈ f.doc) ∨
      (∃ k ∈ c.constructors, part ∈ k.doc) ∨ ∃ d ∈ c.methods, part ∈ d.doc := by
  simp only [docs, List.mem_append, List.mem_flatMap, or_assoc]

theorem doc_subset_docs (c : ClassDecl) : c.doc ⊆ c.docs :=
  fun _ hp => mem_docs_iff.2 (Or.inl hp)

theorem fieldDoc_subset_docs {c : ClassDecl} {f : FieldDecl} (hf : f ∈ c.fields) :
    f.doc ⊆ c.docs :=
  fun _ hp => mem_docs_iff.2 (Or.inr (Or.inl ⟨f, hf, hp⟩))

theorem constructorDoc_subset_docs {c : ClassDecl} {k : ConstructorDecl}
    (hk : k ∈ c.constructors) : k.doc ⊆ c.docs :=
  fun _ hp => mem_docs_iff.2 (Or.inr (Or.inr (Or.inl ⟨k, hk, hp⟩)))

theorem methodDoc_subset_docs {c : ClassDecl} {d : MethodDecl} (hd : d ∈ c.methods) :
    d.doc ⊆ c.docs :=
  fun _ hp => mem_docs_iff.2 (Or.inr (Or.inr (Or.inr ⟨d, hd, hp⟩)))

end ClassDecl

end JavaSource
